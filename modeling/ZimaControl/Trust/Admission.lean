import ZimaControl.Lib.Atomic
import ZimaControl.Lib.JsMap
import ZimaControl.Lib.Task
import ZimaControl.Trust.Contracts

/-!
# The admission of a runtime issuer

`packages/runtime-trust-authority`: `RuntimeTrustAuthorityAdmission` with its challenge registry,
its session manager and its connection limiter, and the issuer's `createChallengeProof`. A call of
the authority waits once, for the snapshot of the trust state; what it does before and after that
wait is one atomic segment. `admissionMachine` runs any number of calls at once, each at its own
segment.

A record of the challenge registry is an object that a waiting `verifyResponse` holds on to while
the registry may drop it, so records live in a `heap` and the maps hold their places. Object
identities (sockets, connection contexts) are numbers. The clock and the random source are the
sequences of their readings, and `log` is the history of what the two parties did, which is read
only to say what a signature means: it verifies only over bytes that the holder of the key signed.
-/

namespace ZimaControl.RuntimeTrust

open Wire

/-! ## Connections and snapshots -/

/-- `RuntimePeerCredentials`. -/
structure RuntimePeerCredentials where
  pid : ℤ
  uid : ℤ
  gid : ℤ

/-- `RuntimeConnectionContext`, with whether `authenticateIssuerConnection` made it. -/
structure RuntimeConnectionContext where
  identity : ℕ
  peerCredentials : RuntimePeerCredentials
  acceptedMonotonicNs : ℤ
  authenticated : Bool

/-- `assertIssuerPeer`. -/
def assertIssuerPeer (credentials : RuntimePeerCredentials) : TrustExcept Unit :=
  if credentials.pid < 0 ∨ credentials.pid > 0x7fffffff ∨ credentials.uid ≠ 21011 ∨
      credentials.gid ≠ 21011 then .error .peerNotAuthorized
  else .ok ()

/-- `RuntimeTrustSnapshot`. -/
structure RuntimeTrustSnapshot where
  authorityId : JsString
  issuerId : JsString
  serviceBoundaryId : JsString
  bindingEpoch : JsString
  trustStatus : JsString
  stateVersion : ℤ
  activeKeyId : Option JsString
  pendingKeyId : Option JsString
  currentOperationId : Option JsString
  keyId : Option JsString
  keyIssuerId : Option JsString
  keyVersion : Option ℤ
  keyStatus : Option JsString
  algorithm : Option JsString
  publicKeyEncoding : Option JsString
  publicKey : Option JsString
  publicKeyFingerprint : Option JsString
  fingerprintAlgorithm : Option JsString
  deriving DecidableEq

/-- `AdmissibleRuntimeTrustSnapshot`: what an admissible snapshot does not leave fixed. -/
structure AdmissibleRuntimeTrustSnapshot where
  authorityId : JsString
  issuerId : JsString
  serviceBoundaryId : JsString
  bindingEpoch : JsString
  stateVersion : ℤ
  activeKeyId : JsString
  keyVersion : ℤ
  publicKey : JsString
  publicKeyFingerprint : JsString

/-- The snapshot with the fields that admissibility fixes. -/
def AdmissibleRuntimeTrustSnapshot.toSnapshot (s : AdmissibleRuntimeTrustSnapshot) :
    RuntimeTrustSnapshot where
  authorityId := s.authorityId
  issuerId := s.issuerId
  serviceBoundaryId := s.serviceBoundaryId
  bindingEpoch := s.bindingEpoch
  trustStatus := js "ACTIVE"
  stateVersion := s.stateVersion
  activeKeyId := some s.activeKeyId
  pendingKeyId := none
  currentOperationId := none
  keyId := some s.activeKeyId
  keyIssuerId := some s.issuerId
  keyVersion := some s.keyVersion
  keyStatus := some (js "ACTIVE")
  algorithm := some (js "Ed25519")
  publicKeyEncoding := some (js "SPKI_DER_BASE64")
  publicKey := some s.publicKey
  publicKeyFingerprint := some s.publicKeyFingerprint
  fingerprintAlgorithm := some (js "SHA-256")

/-- What the authority's process is given: `canonicalEd25519PublicKey`, which returns the canonical
key and its fingerprint, and the readings of the clock and of the random source. -/
structure AuthorityHost where
  canonicalEd25519PublicKey : JsString → TrustExcept (JsString × JsString)
  nowNs : ℕ → ℤ
  bytes : ℕ → List Byte

/-- A field that must be neither `null` nor empty. -/
def present (value : Option JsString) (code : RuntimeTrustErrorCode) : TrustExcept JsString :=
  match value with
  | some text => if text = [] then .error code else .ok text
  | none => .error code

/-- A number that must not be `null`. -/
def presentNumber (value : Option ℤ) (code : RuntimeTrustErrorCode) : TrustExcept ℤ :=
  match value with
  | some number => .ok number
  | none => .error code

/-- `assertEd25519PublicKeyMetadata`. -/
def assertEd25519PublicKeyMetadata (host : AuthorityHost)
    (algorithm publicKeyEncoding publicKey publicKeyFingerprint fingerprintAlgorithm : JsString) :
    TrustExcept (JsString × JsString) := do
  if algorithm ≠ js "Ed25519" then throw .unsupportedAlgorithm
  if publicKeyEncoding ≠ js "SPKI_DER_BASE64" ∨ fingerprintAlgorithm ≠ js "SHA-256" then
    throw .invalidKey
  assertFingerprint publicKeyFingerprint
  let canonical ← host.canonicalEd25519PublicKey publicKey
  if canonical.2 ≠ publicKeyFingerprint then throw .invalidKey
  return canonical

/-- `assertAdmissibleRuntimeTrustSnapshot` of a snapshot that is there. -/
def assertAdmissible (host : AuthorityHost) (snapshot : RuntimeTrustSnapshot) :
    TrustExcept AdmissibleRuntimeTrustSnapshot := do
  assertCanonicalUuid snapshot.authorityId
  assertCanonicalUuid snapshot.issuerId
  assertBoundaryIdentifier snapshot.serviceBoundaryId
  assertBoundaryIdentifier snapshot.bindingEpoch
  assertSafeInteger snapshot.stateVersion false
  if snapshot.trustStatus = js "REBIND_REQUIRED" then throw .rebindRequired
  if snapshot.trustStatus = js "REVOKED" then throw .revokedKey
  if snapshot.trustStatus = js "UNCERTAIN" then throw .uncertainTrust
  if snapshot.trustStatus ≠ js "ACTIVE" then throw .trustStateNotAdmissible
  if snapshot.pendingKeyId ≠ none ∨ snapshot.currentOperationId ≠ none then
    throw .trustStateNotAdmissible
  let activeKeyId ← present snapshot.activeKeyId .invalidKey
  if snapshot.keyId ≠ some activeKeyId ∨ snapshot.keyIssuerId ≠ some snapshot.issuerId then
    throw .invalidKey
  if snapshot.keyStatus = some (js "REVOKED") then throw .revokedKey
  if snapshot.keyStatus ≠ some (js "ACTIVE") then throw .trustStateNotAdmissible
  let keyVersion ← presentNumber snapshot.keyVersion .trustStateNotAdmissible
  assertSafeInteger keyVersion true
  let algorithm ← present snapshot.algorithm .invalidKey
  let publicKeyEncoding ← present snapshot.publicKeyEncoding .invalidKey
  let publicKey ← present snapshot.publicKey .invalidKey
  let publicKeyFingerprint ← present snapshot.publicKeyFingerprint .invalidKey
  let fingerprintAlgorithm ← present snapshot.fingerprintAlgorithm .invalidKey
  let canonical ← assertEd25519PublicKeyMetadata host algorithm publicKeyEncoding publicKey
    publicKeyFingerprint fingerprintAlgorithm
  if canonical.1 ≠ publicKey ∨ canonical.2 ≠ publicKeyFingerprint then throw .invalidKey
  return ⟨snapshot.authorityId, snapshot.issuerId, snapshot.serviceBoundaryId,
    snapshot.bindingEpoch, snapshot.stateVersion, activeKeyId, keyVersion, publicKey,
    publicKeyFingerprint⟩

/-- `assertAdmissibleRuntimeTrustSnapshot`. -/
def assertAdmissibleRuntimeTrustSnapshot (host : AuthorityHost)
    (snapshot : Option RuntimeTrustSnapshot) : TrustExcept AdmissibleRuntimeTrustSnapshot :=
  match snapshot with
  | none => .error .invalidIdentity
  | some snapshot => assertAdmissible host snapshot

/-- `requireFreshAdmissibleSnapshot`: every refusal but an uncertain state is a stale snapshot. -/
def requireFreshAdmissibleSnapshot (host : AuthorityHost) (snapshot : Option RuntimeTrustSnapshot) :
    TrustExcept AdmissibleRuntimeTrustSnapshot :=
  match assertAdmissibleRuntimeTrustSnapshot host snapshot with
  | .ok admissible => .ok admissible
  | .error code => .error (if code = .uncertainTrust then .uncertainTrust else .staleTrustSnapshot)

/-- `assertHelloMatchesSnapshot`. -/
def assertHelloMatchesSnapshot (hello : RuntimeTrustHello)
    (snapshot : AdmissibleRuntimeTrustSnapshot) : TrustExcept Unit :=
  if hello.authorityId ≠ snapshot.authorityId then .error .wrongAuthority
  else if hello.issuerId ≠ snapshot.issuerId then .error .invalidIdentity
  else if hello.serviceBoundaryId ≠ snapshot.serviceBoundaryId ∨
      hello.bindingEpoch ≠ snapshot.bindingEpoch then .error .wrongBinding
  else if hello.publicKeyFingerprint ≠ snapshot.publicKeyFingerprint then .error .invalidKey
  else .ok ()

/-- `sameAdmissibleSnapshot`: all the fields of the two snapshots agree. -/
def sameAdmissibleSnapshot (left right : AdmissibleRuntimeTrustSnapshot) : Bool :=
  left.toSnapshot == right.toSnapshot

/-- `challengeMatchesSnapshot`. -/
def challengeMatchesSnapshot (challenge : RuntimeTrustChallenge)
    (snapshot : AdmissibleRuntimeTrustSnapshot) : Bool :=
  challenge.authorityId == snapshot.authorityId && challenge.issuerId == snapshot.issuerId &&
    challenge.serviceBoundaryId == snapshot.serviceBoundaryId &&
    challenge.bindingEpoch == snapshot.bindingEpoch &&
    challenge.keyVersion == snapshot.keyVersion &&
    challenge.publicKeyFingerprint == snapshot.publicKeyFingerprint &&
    challenge.stateVersion == snapshot.stateVersion

/-! ## The state of the two parties -/

/-- `ReservedRuntimeChallenge`. -/
structure ReservedRuntimeChallenge where
  challenge : RuntimeTrustChallenge
  canonicalPayload : List Byte
  initialSnapshot : AdmissibleRuntimeTrustSnapshot
  connection : RuntimeConnectionContext
  deadlineNs : ℤ

/-- The `state` of a challenge record. -/
inductive ChallengeState
  | issued | verifying
  deriving DecidableEq

/-- `ChallengeRecord`. -/
structure ChallengeRecord extends ReservedRuntimeChallenge where
  state : ChallengeState

/-- `RuntimeTrustSession`. -/
structure RuntimeTrustSession where
  sessionId : JsString
  connectionIdentity : ℕ
  verifiedIssuerUid : ℤ
  verifiedIssuerGid : ℤ
  runtimeInstanceId : JsString
  authorityId : JsString
  issuerId : JsString
  serviceBoundaryId : JsString
  bindingEpoch : JsString
  activeKeyId : JsString
  keyVersion : ℤ
  publicKeyFingerprint : JsString
  stateVersion : ℤ
  createdMonotonicNs : ℤ
  lastActivityMonotonicNs : ℤ

/-- `AuthenticatedAuthorityConnection`: the issuer's side of a connection. -/
structure AuthorityConnection where
  context : ℕ
  identity : ℕ
  authenticated : Bool
  deriving DecidableEq

/-- `BoundProvider`: the key with its public half, the manifest it is bound to, and whether `close`
has dropped it. -/
structure BoundProvider where
  authorityId : JsString
  issuerId : JsString
  serviceBoundaryId : JsString
  bindingEpoch : JsString
  publicKey : JsString
  publicKeyFingerprint : JsString
  runtimeInstanceId : JsString
  authorityConnection : AuthorityConnection
  usedConnections : List ℕ
  closed : Bool

/-- An admission: the call's response and connection, the challenge of the record it reserved, the
snapshots at issue and inside the call, and the session. -/
structure Admission where
  response : RuntimeTrustResponse
  connection : RuntimeConnectionContext
  challenge : RuntimeTrustChallenge
  initialSnapshot : AdmissibleRuntimeTrustSnapshot
  currentSnapshot : Option RuntimeTrustSnapshot
  session : RuntimeTrustSession

/-- What the parties did. -/
inductive TrustEvent
  /-- An `issueChallenge` returned a challenge, at this time. -/
  | issued (hello : RuntimeTrustHello) (connection : RuntimeConnectionContext)
      (challenge : RuntimeTrustChallenge) (snapshot : AdmissibleRuntimeTrustSnapshot) (atNs : ℤ)
  /-- `closeConnection` of a connection. -/
  | closed (connection : ℕ)
  /-- `resetForAuthorityRestart`. -/
  | reset
  /-- A `createChallengeProof` of the holder of a key returned a proof for a challenge, by signing
  these bytes. -/
  | proved (publicKey : JsString) (challenge : RuntimeTrustChallenge) (payload : List Byte)
  /-- A `verifyResponse` admitted a connection. -/
  | admitted (admission : Admission)

/-- The memory of the authority and of the issuers, and the history. -/
structure TrustWorld where
  heap : List ChallengeRecord
  records : JsMap JsString ℕ
  issuerChallenges : JsMap JsString JsString
  connectionChallenges : JsMap ℕ JsString
  nonceValues : List JsString
  closedConnections : List ℕ
  sessions : JsMap ℕ RuntimeTrustSession
  boundaries : JsMap JsString ℕ
  unauthenticatedConnections : List ℕ
  readings : ℕ
  draws : ℕ
  providers : List BoundProvider
  log : List TrustEvent

/-- Nothing has happened yet. -/
def TrustWorld.initial : TrustWorld :=
  ⟨[], ∅, ∅, ∅, [], [], ∅, ∅, [], 0, 0, [], []⟩

/-- An uninterrupted piece of the code of either party. -/
abbrev TrustCode (α : Type) := Atomic TrustWorld RuntimeTrustErrorCode α

namespace TrustWorld

variable (w : TrustWorld)

/-- Adds an event to the history. -/
def record (event : TrustEvent) : TrustWorld := { w with log := w.log ++ [event] }

/-- `RuntimeUnauthenticatedConnectionLimiter.release`. -/
def release (identity : ℕ) : TrustWorld :=
  { w with unauthenticatedConnections := w.unauthenticatedConnections.filter (· ≠ identity) }

/-- `RuntimeChallengeRegistry.consume` of the record at a place of the heap. -/
def consume (reserved : ℕ) : TrustWorld :=
  match w.heap[reserved]? with
  | none => w
  | some record =>
    if w.records.get record.challenge.challengeId ≠ some reserved then w
    else
      { w with
        records := w.records.delete record.challenge.challengeId
        issuerChallenges := w.issuerChallenges.delete record.challenge.issuerId
        connectionChallenges := w.connectionChallenges.delete record.connection.identity
        nonceValues := w.nonceValues.filter (· ≠ hex record.challenge.nonce) }

/-- `record.state = "VERIFYING"`. -/
def markVerifying (reserved : ℕ) : TrustWorld :=
  { w with heap := w.heap.modify reserved fun record => { record with state := .verifying } }

/-- One round of the loop of `RuntimeChallengeRegistry.removeExpired`. -/
def removeIfExpired (now : ℤ) (exceptChallengeId : Option JsString) (reserved : ℕ) : TrustWorld :=
  match w.heap[reserved]? with
  | none => w
  | some record =>
    if some record.challenge.challengeId ≠ exceptChallengeId ∧ now ≥ record.deadlineNs then
      w.consume reserved
    else w

/-- The loop of `RuntimeChallengeRegistry.removeExpired`. -/
def removeExpiredChallenges (now : ℤ) (exceptChallengeId : Option JsString) : TrustWorld :=
  w.records.values.foldl (fun w reserved => w.removeIfExpired now exceptChallengeId reserved) w

/-- `RuntimeTrustSessionManager.remove`. -/
def removeSession (identity : ℕ) : TrustWorld :=
  match w.sessions.get identity with
  | none => w
  | some existing =>
    { w with
      sessions := w.sessions.delete identity
      boundaries :=
        if w.boundaries.get existing.serviceBoundaryId = some identity then
          w.boundaries.delete existing.serviceBoundaryId
        else w.boundaries }

/-- Whether a session has run out at this time: `MAX_SESSION_NS`, `IDLE_SESSION_NS`, or a clock that
went back. -/
def sessionExpired (session : RuntimeTrustSession) (now : ℤ) : Bool :=
  now < session.createdMonotonicNs || now - session.createdMonotonicNs ≥ 600000000000 ||
    now < session.lastActivityMonotonicNs || now - session.lastActivityMonotonicNs ≥ 60000000000

/-- The loop of `RuntimeTrustSessionManager.removeExpired`. -/
def removeExpiredSessions (now : ℤ) : TrustWorld :=
  w.sessions.entries.foldl
    (fun w entry => if sessionExpired entry.2 now then w.removeSession entry.1 else w) w

/-- Whether the holder of the key signed these bytes. -/
def hasSigned (publicKey : JsString) (payload : List Byte) : Bool :=
  w.log.any fun event =>
    match event with
    | .proved publicKey' _ payload' => publicKey' == publicKey && payload' == payload
    | _ => false

end TrustWorld

/-! ## The code between the awaits -/

section Authority

variable (host : AuthorityHost)

/-- `clock.nowNs()`. -/
def nowNs : TrustCode ℤ := do
  let w ← get
  modify fun w => { w with readings := w.readings + 1 }
  return host.nowNs w.readings

/-- `random.bytes(32)`. -/
def randomBytes : TrustCode (List Byte) := do
  let w ← get
  modify fun w => { w with draws := w.draws + 1 }
  return host.bytes w.draws

/-- The loop of `uniqueIdentifier`, `uniqueNonce` and `uniqueSessionId`: up to `attempts` draws of 32
bytes, the first that is not used. -/
def drawUnused (used : List Byte → Bool) : ℕ → TrustCode (List Byte)
  | 0 => throw .transportFailure
  | attempts + 1 => do
    let bytes ← randomBytes host
    if bytes.length ≠ 32 then throw .transportFailure
    if used bytes then drawUnused used attempts else return bytes

/-- A runtime identifier of a kind. -/
def identifierOf (kind : String) (bytes : List Byte) : JsString := js kind ++ js "-" ++ hex bytes

/-- `RuntimeChallengeRegistry.removeExpired`. -/
def removeExpired (exceptChallengeId : Option JsString) : TrustCode Unit := do
  let now ← nowNs host
  modify fun w => w.removeExpiredChallenges now exceptChallengeId

/-- `RuntimeTrustSessionManager.removeExpired`. -/
def removeExpiredSessions : TrustCode Unit := do
  let now ← nowNs host
  modify fun w => w.removeExpiredSessions now

/-- `CHALLENGE_LIFETIME_NS`. -/
def challengeLifetimeNs : ℤ := 10000000000

/-- `MAX_HANDSHAKE_NS`. -/
def maxHandshakeNs : ℤ := 15000000000

/-- Whether the time is outside of a connection's handshake. -/
def outsideHandshake (now : ℤ) (connection : RuntimeConnectionContext) : Prop :=
  now < connection.acceptedMonotonicNs ∨ now - connection.acceptedMonotonicNs ≥ maxHandshakeNs

instance (now : ℤ) (connection : RuntimeConnectionContext) :
    Decidable (outsideHandshake now connection) := inferInstanceAs (Decidable (_ ∨ _))

/-- `assertHandshakeLifetime`. -/
def assertHandshakeLifetime (connection : RuntimeConnectionContext) : TrustCode Unit := do
  let now ← nowNs host
  if outsideHandshake now connection then throw .expired

/-- Sets the record of a new challenge in the registry's maps. -/
def TrustWorld.addRecord (w : TrustWorld) (record : ReservedRuntimeChallenge) : TrustWorld :=
  { w with
    heap := w.heap ++ [⟨record, .issued⟩]
    records := w.records.set record.challenge.challengeId w.heap.length
    issuerChallenges :=
      w.issuerChallenges.set record.initialSnapshot.issuerId record.challenge.challengeId
    connectionChallenges :=
      w.connectionChallenges.set record.connection.identity record.challenge.challengeId
    nonceValues :=
      if w.nonceValues.contains (hex record.challenge.nonce) then w.nonceValues
      else w.nonceValues ++ [hex record.challenge.nonce] }

/-- The challenge of `RuntimeChallengeRegistry.issue`. -/
def challengeOf (snapshot : AdmissibleRuntimeTrustSnapshot) (runtimeInstanceId challengeId : JsString)
    (nonce : List Byte) : RuntimeTrustChallenge where
  authorityId := snapshot.authorityId
  issuerId := snapshot.issuerId
  serviceBoundaryId := snapshot.serviceBoundaryId
  bindingEpoch := snapshot.bindingEpoch
  keyVersion := snapshot.keyVersion
  publicKeyFingerprint := snapshot.publicKeyFingerprint
  stateVersion := snapshot.stateVersion
  runtimeInstanceId := runtimeInstanceId
  challengeId := challengeId
  nonce := nonce

/-- `RuntimeChallengeRegistry.issue`; the record it makes holds the challenge it returns. -/
def issue (snapshot : AdmissibleRuntimeTrustSnapshot) (runtimeInstanceId : JsString)
    (connection : RuntimeConnectionContext) : TrustCode ReservedRuntimeChallenge := do
  removeExpired host none
  let now ← nowNs host
  if outsideHandshake now connection then throw .expired
  let w ← get
  if w.closedConnections.contains connection.identity ∨ w.records.entries.length ≥ 16 ∨
      w.issuerChallenges.has snapshot.issuerId ∨
      w.connectionChallenges.has connection.identity then
    throw .transportFailure
  let bytes ← drawUnused host (fun bytes => w.records.has (identifierOf "ch1" bytes)) 8
  let nonce ← drawUnused host (fun nonce => w.nonceValues.contains (hex nonce)) 8
  let challenge := challengeOf snapshot runtimeInstanceId (identifierOf "ch1" bytes) nonce
  let canonicalPayload ← MonadExcept.ofExcept (encodeRuntimeTrustChallenge challenge)
  let record : ReservedRuntimeChallenge :=
    ⟨challenge, canonicalPayload, snapshot, connection, now + challengeLifetimeNs⟩
  modify fun w => w.addRecord record
  return record

/-- `RuntimeChallengeRegistry.reserve`, which returns the place of the record. -/
def reserve (response : RuntimeTrustResponse) (connection : RuntimeConnectionContext) :
    TrustCode ℕ := do
  removeExpired host (some response.challengeId)
  let w ← get
  match w.records.get response.challengeId with
  | none => throw .replay
  | some reserved =>
    match w.heap[reserved]? with
    | none => throw .replay
    | some record =>
      if record.state ≠ .issued then throw .replay
      let now ← nowNs host
      if now ≥ record.deadlineNs then
        modify fun w => w.consume reserved
        throw .expired
      else
        modify fun w => w.markVerifying reserved
        if record.connection.identity ≠ connection.identity ∨
            record.challenge.runtimeInstanceId ≠ response.runtimeInstanceId ∨
            w.closedConnections.contains connection.identity then
          modify fun w => w.consume reserved
          throw .replay
        else return reserved

/-- `RuntimeChallengeRegistry.isReserved`. -/
def isReserved (w : TrustWorld) (reserved : ℕ) : Bool :=
  match w.heap[reserved]? with
  | none => false
  | some record =>
    w.records.get record.challenge.challengeId == some reserved &&
      record.state == .verifying && !w.closedConnections.contains record.connection.identity

/-- `RuntimeTrustSessionManager.create`. -/
def createSession (snapshot : AdmissibleRuntimeTrustSnapshot) (runtimeInstanceId : JsString)
    (connection : RuntimeConnectionContext) : TrustCode RuntimeTrustSession := do
  removeExpiredSessions host
  let w ← get
  if (w.boundaries.get snapshot.serviceBoundaryId).any (· ≠ connection.identity) then
    throw .sessionConflict
  if w.sessions.has connection.identity then throw .sessionConflict
  let now ← nowNs host
  let bytes ← drawUnused host
    (fun bytes => w.sessions.values.any (·.sessionId == identifierOf "rs1" bytes)) 8
  let session : RuntimeTrustSession :=
    { sessionId := identifierOf "rs1" bytes
      connectionIdentity := connection.identity
      verifiedIssuerUid := connection.peerCredentials.uid
      verifiedIssuerGid := connection.peerCredentials.gid
      runtimeInstanceId := runtimeInstanceId
      authorityId := snapshot.authorityId
      issuerId := snapshot.issuerId
      serviceBoundaryId := snapshot.serviceBoundaryId
      bindingEpoch := snapshot.bindingEpoch
      activeKeyId := snapshot.activeKeyId
      keyVersion := snapshot.keyVersion
      publicKeyFingerprint := snapshot.publicKeyFingerprint
      stateVersion := snapshot.stateVersion
      createdMonotonicNs := now
      lastActivityMonotonicNs := now }
  modify fun w => { w with
    sessions := w.sessions.set connection.identity session
    boundaries := w.boundaries.set snapshot.serviceBoundaryId connection.identity }
  return session

/-- `sessionMatchesSnapshot`. -/
def sessionMatchesSnapshot (session : RuntimeTrustSession)
    (snapshot : AdmissibleRuntimeTrustSnapshot) : Bool :=
  session.authorityId == snapshot.authorityId && session.issuerId == snapshot.issuerId &&
    session.serviceBoundaryId == snapshot.serviceBoundaryId &&
    session.bindingEpoch == snapshot.bindingEpoch &&
    session.stateVersion == snapshot.stateVersion &&
    session.activeKeyId == snapshot.activeKeyId && session.keyVersion == snapshot.keyVersion &&
    session.publicKeyFingerprint == snapshot.publicKeyFingerprint

/-- `RuntimeTrustSessionManager.requireCurrent`. -/
def requireCurrent (identity : ℕ) (snapshot : AdmissibleRuntimeTrustSnapshot) :
    TrustCode RuntimeTrustSession := do
  let w ← get
  match w.sessions.get identity with
  | none => throw .sessionInvalidated
  | some existing =>
    let now ← nowNs host
    if TrustWorld.sessionExpired existing now ∨ sessionMatchesSnapshot existing snapshot = false then
      modify fun w => w.removeSession identity
      throw .sessionInvalidated
    else
      let updated := { existing with lastActivityMonotonicNs := now }
      modify fun w => { w with sessions := w.sessions.set identity updated }
      return updated

/-- `issueChallenge` up to the read of the snapshot. -/
def beginIssueChallenge (hello : RuntimeTrustHello) (connection : RuntimeConnectionContext) :
    TrustCode Unit := do
  if connection.authenticated = false then throw .peerNotAuthorized
  let _ ← MonadExcept.ofExcept (encodeRuntimeTrustHello hello)
  let w ← get
  -- `unauthenticatedConnections.register`
  if w.unauthenticatedConnections.contains connection.identity then throw .replay
  if w.unauthenticatedConnections.length ≥ 16 then throw .transportFailure
  modify fun w => { w with
    unauthenticatedConnections := w.unauthenticatedConnections ++ [connection.identity] }
  Atomic.onError (·.release connection.identity) do
    MonadExcept.ofExcept (assertIssuerPeer connection.peerCredentials)
    assertHandshakeLifetime host connection

/-- The `try` block of `issueChallenge` from the snapshot on. -/
def issueFromSnapshot (hello : RuntimeTrustHello) (connection : RuntimeConnectionContext)
    (read : TrustExcept (Option RuntimeTrustSnapshot)) : TrustCode RuntimeTrustChallenge := do
  let snapshot ← MonadExcept.ofExcept read
  let snapshot ← MonadExcept.ofExcept (assertAdmissibleRuntimeTrustSnapshot host snapshot)
  MonadExcept.ofExcept (assertHelloMatchesSnapshot hello snapshot)
  removeExpiredSessions host
  let w ← get
  if w.sessions.has connection.identity then throw .sessionConflict
  removeExpiredSessions host
  let w ← get
  if w.boundaries.has snapshot.serviceBoundaryId then throw .sessionConflict
  let record ← issue host snapshot hello.runtimeInstanceId connection
  modify fun w => w.record (.issued hello connection record.challenge snapshot
    (record.deadlineNs - challengeLifetimeNs))
  return record.challenge

/-- `issueChallenge` from the snapshot on. -/
def resumeIssueChallenge (hello : RuntimeTrustHello) (connection : RuntimeConnectionContext)
    (read : TrustExcept (Option RuntimeTrustSnapshot)) : TrustCode RuntimeTrustChallenge :=
  Atomic.onError (·.release connection.identity) (issueFromSnapshot host hello connection read)

/-- `verifyResponse` up to the read of the snapshot, which returns the place of the reserved
record. -/
def beginVerifyResponse (response : RuntimeTrustResponse) (connection : RuntimeConnectionContext) :
    TrustCode ℕ := do
  if connection.authenticated = false then throw .peerNotAuthorized
  let _ ← MonadExcept.ofExcept (encodeRuntimeTrustResponse response)
  let reserved ← reserve host response connection
  Atomic.onError (fun w => (w.consume reserved).release connection.identity) do
    MonadExcept.ofExcept (assertIssuerPeer connection.peerCredentials)
    assertHandshakeLifetime host connection
  return reserved

/-- `verifyRuntimeTrustSignature`. Whether the bytes are a signature of the payload is `valid`, but
only a payload that the holder of the key signed has one. -/
def verifyRuntimeTrustSignature (w : TrustWorld) (publicKey : JsString)
    (canonicalChallenge signature : List Byte) (valid : Bool) : TrustExcept Bool := do
  if canonicalChallenge.length < 1 ∨ canonicalChallenge.length > maxFrameBytes ∨
      signature.length ≠ signatureBytes then
    throw .invalidSignature
  let canonical ← host.canonicalEd25519PublicKey publicKey
  return valid && w.hasSigned canonical.1 canonicalChallenge

/-- `verifyResponse` from the snapshot on. -/
def resumeVerifyResponse (reserved : ℕ) (response : RuntimeTrustResponse)
    (connection : RuntimeConnectionContext) (read : TrustExcept (Option RuntimeTrustSnapshot))
    (valid : Bool) : TrustCode RuntimeTrustAdmitted :=
  Atomic.andFinally (fun w => (w.consume reserved).release connection.identity) do
    let current ← MonadExcept.ofExcept read
    let admissible ← MonadExcept.ofExcept (requireFreshAdmissibleSnapshot host current)
    let w ← get
    match w.heap[reserved]? with
    | none => throw .replay
    | some record =>
      if sameAdmissibleSnapshot record.initialSnapshot admissible = false ∨
          challengeMatchesSnapshot record.challenge admissible = false then
        throw .staleTrustSnapshot
      let verified ← MonadExcept.ofExcept (verifyRuntimeTrustSignature host w admissible.publicKey
        record.canonicalPayload response.signature valid)
      if verified = false then throw .invalidSignature
      if isReserved w reserved = false then throw .replay
      -- the deadlines are not looked at again after the read
      let session ← createSession host admissible response.runtimeInstanceId connection
      modify fun w => w.record (.admitted ⟨response, connection, record.challenge,
        record.initialSnapshot, current, session⟩)
      return ⟨session.sessionId, session.runtimeInstanceId, session.keyVersion,
        session.bindingEpoch, session.stateVersion⟩

/-- `requireCurrentSession` up to the read of the snapshot. -/
def beginRequireCurrentSession (connection : RuntimeConnectionContext) :
    TrustCode RuntimeTrustSession := do
  if connection.authenticated = false then throw .peerNotAuthorized
  MonadExcept.ofExcept (assertIssuerPeer connection.peerCredentials)
  removeExpiredSessions host
  let w ← get
  match w.sessions.get connection.identity with
  | none => throw .sessionInvalidated
  | some session => return session

/-- `requireCurrentSession` from the snapshot on. -/
def resumeRequireCurrentSession (connection : RuntimeConnectionContext)
    (read : TrustExcept (Option RuntimeTrustSnapshot)) : TrustCode RuntimeTrustSession :=
  MonadExcept.tryCatch
    (do
      let current ← MonadExcept.ofExcept read
      let current ← MonadExcept.ofExcept (assertAdmissibleRuntimeTrustSnapshot host current)
      requireCurrent host connection.identity current)
    fun error => do
      modify fun w => w.removeSession connection.identity
      throw (if error = .uncertainTrust then .uncertainTrust else .sessionInvalidated)

end Authority

/-- `RuntimeChallengeRegistry.closeConnection`. -/
def TrustWorld.closeChallenges (w : TrustWorld) (identity : ℕ) : TrustWorld :=
  let w := { w with closedConnections := identity :: w.closedConnections }
  match (w.connectionChallenges.get identity).bind w.records.get with
  | none => w
  | some reserved => w.consume reserved

/-- `closeConnection`. -/
def closeConnection (identity : ℕ) : TrustCode Unit :=
  modify fun w =>
    (((w.closeChallenges identity).release identity).removeSession identity).record
      (.closed identity)

/-- `clear` of the registry, of the session manager and of the limiter. -/
def TrustWorld.clear (w : TrustWorld) : TrustWorld :=
  { w with
    records := ∅
    issuerChallenges := ∅
    connectionChallenges := ∅
    nonceValues := []
    closedConnections := []
    sessions := ∅
    boundaries := ∅
    unauthenticatedConnections := [] }

/-- `resetForAuthorityRestart`. -/
def resetForAuthorityRestart : TrustCode Unit :=
  modify fun w => w.clear.record .reset

/-- The checks of `BoundProvider.createChallengeProof`, up to the bytes to sign. -/
def checkChallenge (provider : BoundProvider) (challenge : RuntimeTrustChallenge)
    (connection : AuthorityConnection) : TrustExcept (List Byte) := do
  if provider.closed then throw .invalidKey
  if connection.authenticated = false ∨ connection ≠ provider.authorityConnection then
    throw .peerNotAuthorized
  if provider.usedConnections.contains connection.identity then throw .replay
  if challenge.authorityId ≠ provider.authorityId then throw .wrongAuthority
  if challenge.issuerId ≠ provider.issuerId then throw .invalidIdentity
  if challenge.serviceBoundaryId ≠ provider.serviceBoundaryId ∨
      challenge.bindingEpoch ≠ provider.bindingEpoch then
    throw .wrongBinding
  if challenge.publicKeyFingerprint ≠ provider.publicKeyFingerprint then throw .invalidKey
  if challenge.runtimeInstanceId ≠ provider.runtimeInstanceId then throw .invalidIdentity
  encodeRuntimeTrustChallenge challenge

/-- Replaces the provider at a place. -/
def TrustWorld.setProvider (w : TrustWorld) (place : ℕ) (provider : BoundProvider) : TrustWorld :=
  { w with providers := w.providers.set place provider }

/-- `BoundProvider.createChallengeProof` of the provider at a place; `signature` is what `sign`
makes of the challenge's bytes. -/
def createChallengeProof (place : ℕ) (challenge : RuntimeTrustChallenge)
    (connection : AuthorityConnection) (signature : List Byte) : TrustCode RuntimeTrustResponse := do
  let w ← get
  match w.providers[place]? with
  | none => throw .invalidKey
  | some provider =>
    let payload ← MonadExcept.ofExcept (checkChallenge provider challenge connection)
    if signature.length ≠ 64 then throw .invalidSignature
    let provider :=
      { provider with usedConnections := connection.identity :: provider.usedConnections }
    modify fun w => (w.setProvider place provider).record
      (.proved provider.publicKey challenge payload)
    return ⟨challenge.challengeId, challenge.runtimeInstanceId, signature⟩

/-- `loadIssuerPrivateKeyProvider` made a provider. -/
def openProvider (provider : BoundProvider) : TrustCode Unit :=
  modify fun w => { w with providers := w.providers ++ [provider] }

/-- `BoundProvider.close`. -/
def closeProvider (place : ℕ) : TrustCode Unit :=
  modify fun w => { w with
    providers := w.providers.modify place fun provider => { provider with closed := true } }

/-! ## The calls -/

/-- The uninterrupted pieces of the calls. The call that waits in `verifyResponse` carries how many
readings of the clock came before its two deadline checks, for statements about its wait; the code
has no such number. -/
inductive TrustCall
  | beginIssueChallenge (hello : RuntimeTrustHello) (connection : RuntimeConnectionContext)
  | resumeIssueChallenge (hello : RuntimeTrustHello) (connection : RuntimeConnectionContext)
  | beginVerifyResponse (response : RuntimeTrustResponse) (connection : RuntimeConnectionContext)
  | resumeVerifyResponse (reserved checkedAt : ℕ) (response : RuntimeTrustResponse)
      (connection : RuntimeConnectionContext)
  | beginRequireCurrentSession (connection : RuntimeConnectionContext)
  | resumeRequireCurrentSession (connection : RuntimeConnectionContext)
  | closeConnection (identity : ℕ)
  | resetForAuthorityRestart
  | openProvider (provider : BoundProvider)
  | createChallengeProof (place : ℕ) (challenge : RuntimeTrustChallenge)
      (connection : AuthorityConnection)
  | closeProvider (place : ℕ)

/-- What a piece returns. -/
def TrustAnswer : TrustCall → Type
  | .resumeIssueChallenge .. => RuntimeTrustChallenge
  | .beginVerifyResponse .. => ℕ × ℕ
  | .resumeVerifyResponse .. => RuntimeTrustAdmitted
  | .beginRequireCurrentSession .. => RuntimeTrustSession
  | .resumeRequireCurrentSession .. => RuntimeTrustSession
  | .createChallengeProof .. => RuntimeTrustResponse
  | _ => Unit

/-- What the environment decides when a piece runs: the snapshot that the read answers, whether a
signature is one, and the bytes of a new signature. -/
inductive TrustChoice
  | none
  | read (answer : TrustExcept (Option RuntimeTrustSnapshot))
  | verify (answer : TrustExcept (Option RuntimeTrustSnapshot)) (valid : Bool)
  | sign (signature : List Byte)

/-- The calls that the environment may make, in any order and number. -/
inductive TrustJob
  | issueChallenge (hello : RuntimeTrustHello) (connection : RuntimeConnectionContext)
  | verifyResponse (response : RuntimeTrustResponse) (connection : RuntimeConnectionContext)
  | requireCurrentSession (connection : RuntimeConnectionContext)
  | closeConnection (identity : ℕ)
  | resetForAuthorityRestart
  | openProvider (provider : BoundProvider)
  | createChallengeProof (place : ℕ) (challenge : RuntimeTrustChallenge)
      (connection : AuthorityConnection)
  | closeProvider (place : ℕ)

/-- The values that the two parties get. -/
inductive TrustResult
  | challenge (challenge : RuntimeTrustChallenge)
  | admitted (admitted : RuntimeTrustAdmitted)
  | session (session : RuntimeTrustSession)
  | response (response : RuntimeTrustResponse)
  | done

/-- A call of either party as a task. -/
abbrev TrustTask := Task TrustCall TrustAnswer RuntimeTrustErrorCode TrustResult

/-- `issueChallenge`. -/
def issueChallenge (hello : RuntimeTrustHello) (connection : RuntimeConnectionContext) :
    TrustTask := do
  let _ ← Task.perform (TrustCall.beginIssueChallenge hello connection)
  let challenge ← Task.perform (TrustCall.resumeIssueChallenge hello connection)
  return .challenge challenge

/-- `verifyResponse`. -/
def verifyResponse (response : RuntimeTrustResponse) (connection : RuntimeConnectionContext) :
    TrustTask := do
  let waiting ← Task.perform (TrustCall.beginVerifyResponse response connection)
  let admitted ← Task.perform
    (TrustCall.resumeVerifyResponse waiting.1 waiting.2 response connection)
  return .admitted admitted

/-- `requireCurrentSession`. -/
def requireCurrentSession (connection : RuntimeConnectionContext) : TrustTask := do
  let _ ← Task.perform (TrustCall.beginRequireCurrentSession connection)
  let session ← Task.perform (TrustCall.resumeRequireCurrentSession connection)
  return .session session

/-- The task of a call. -/
def TrustJob.body : TrustJob → TrustTask
  | .issueChallenge hello connection => RuntimeTrust.issueChallenge hello connection
  | .verifyResponse response connection => RuntimeTrust.verifyResponse response connection
  | .requireCurrentSession connection => RuntimeTrust.requireCurrentSession connection
  | .closeConnection identity => do
    let _ ← Task.perform (TrustCall.closeConnection identity)
    return .done
  | .resetForAuthorityRestart => do
    let _ ← Task.perform TrustCall.resetForAuthorityRestart
    return .done
  | .openProvider provider => do
    let _ ← Task.perform (TrustCall.openProvider provider)
    return .done
  | .createChallengeProof place challenge connection => do
    let response ← Task.perform (TrustCall.createChallengeProof place challenge connection)
    return .response response
  | .closeProvider place => do
    let _ ← Task.perform (TrustCall.closeProvider place)
    return .done

/-- What a piece does, if the environment's choice fits it. -/
def TrustCall.exec (host : AuthorityHost) (w : TrustWorld) : (call : TrustCall) → TrustChoice →
    Option (TrustExcept (TrustAnswer call) × TrustWorld)
  | .beginIssueChallenge hello connection, .none =>
    some ((RuntimeTrust.beginIssueChallenge host hello connection).exec w)
  | .resumeIssueChallenge hello connection, .read answer =>
    some ((RuntimeTrust.resumeIssueChallenge host hello connection answer).exec w)
  | .beginVerifyResponse response connection, .none =>
    let outcome := (RuntimeTrust.beginVerifyResponse host response connection).exec w
    some (outcome.1.map (·, outcome.2.readings - 2), outcome.2)
  | .resumeVerifyResponse reserved _ response connection, .verify answer valid =>
    some ((RuntimeTrust.resumeVerifyResponse host reserved response connection answer valid).exec w)
  | .beginRequireCurrentSession connection, .none =>
    some ((RuntimeTrust.beginRequireCurrentSession host connection).exec w)
  | .resumeRequireCurrentSession connection, .read answer =>
    some ((RuntimeTrust.resumeRequireCurrentSession host connection answer).exec w)
  | .closeConnection identity, .none => some ((RuntimeTrust.closeConnection identity).exec w)
  | .resetForAuthorityRestart, .none => some (RuntimeTrust.resetForAuthorityRestart.exec w)
  | .openProvider provider, .none => some ((RuntimeTrust.openProvider provider).exec w)
  | .createChallengeProof place challenge connection, .sign signature =>
    some ((RuntimeTrust.createChallengeProof place challenge connection signature).exec w)
  | .closeProvider place, .none => some ((RuntimeTrust.closeProvider place).exec w)
  | _, _ => none

/-- All calls on one `RuntimeTrustAuthorityAdmission`, and the issuers that prove challenges. A piece
runs only when `allowed` admits it. -/
def admissionMachine (host : AuthorityHost) (allowed : TrustWorld → TrustCall → Bool) :
    Machine TrustCall TrustAnswer RuntimeTrustErrorCode TrustResult (TrustWorld × List TrustJob)
      TrustJob TrustChoice where
  body := TrustJob.body
  external _ := true
  jobs w := w.2
  start job w := (w.1, w.2 ++ [job])
  exec _ w call choice :=
    if allowed w.1 call then (call.exec host w.1 choice).map fun (r, w') => (r, w', w.2) else none
  finish _ _ w := w

/-- Every piece may run at any time. -/
def anyTime : TrustWorld → TrustCall → Bool := fun _ _ => true

/-- The machine has a run with these labels from the start, and it ends in this world. -/
def AdmissionRun (host : AuthorityHost) (allowed : TrustWorld → TrustCall → Bool)
    (labels : List (PoolLabel TrustJob TrustChoice)) (w : TrustWorld) : Prop :=
  ((admissionMachine host allowed).run ⟨(.initial, []), []⟩ labels).map (·.world.1) = some w

end ZimaControl.RuntimeTrust
