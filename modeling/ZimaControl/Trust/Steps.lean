import ZimaControl.Trust.Registry

/-!
# What a piece of a call can do

Most of what the calls do takes things away: challenges are consumed, sessions expire, the clock and
the random source are read. `Shrinks` is that, and almost every piece of code is `Quiet`: it does
nothing else. What is left are five things, and `TrustStep` lists them with all that the code has
checked when it does them. `exec_step` proves that every piece does one of the six, and
`AdmissionRun.induct` that what the six preserve holds along every interleaving, so no invariant
looks at the code again.

A `verifyResponse` that waits for its snapshot relies on checks it made before. They are about the
part of its record that never changes, so they still hold when it resumes (`Held`).
-/

namespace ZimaControl.RuntimeTrust

open Wire Atomic

/-! ## Quiet code -/

/-- The registry lost records at most, and nothing was said or added. -/
structure Shrinks (w w' : TrustWorld) : Prop where
  /-- No record was made or rewritten. -/
  reserved : w'.reserved = w.reserved
  /-- An identifier that is still known stands for the same record. -/
  records : ∀ id place, w'.records.get id = some place → w.records.get id = some place
  /-- No connection was closed. -/
  closed : w'.closedConnections = w.closedConnections
  /-- The random source may have moved on. -/
  draws : w.draws ≤ w'.draws
  /-- No event was recorded. -/
  log : w'.log = w.log
  /-- The collections of the registry still belong together. -/
  registry : w.Consistent → w'.Consistent

/-- What does nothing takes nothing away. -/
theorem Shrinks.refl (w : TrustWorld) : Shrinks w w :=
  ⟨rfl, fun _ _ h => h, rfl, Nat.le_refl _, rfl, id⟩

/-- One piece behind another. -/
theorem Shrinks.trans {w₁ w₂ w₃ : TrustWorld} (h : Shrinks w₁ w₂) (h' : Shrinks w₂ w₃) :
    Shrinks w₁ w₃ where
  reserved := h'.reserved.trans h.reserved
  records id place hget := h.records id place (h'.records id place hget)
  closed := h'.closed.trans h.closed
  draws := h.draws.trans h'.draws
  log := h'.log.trans h.log
  registry hw := h'.registry (h.registry hw)

namespace TrustWorld

variable (w : TrustWorld)

/-- Sessions, the connection limiter, the clock and the issuers are no part of the registry. -/
theorem shrinks_elsewhere {sessions : JsMap ℕ RuntimeTrustSession} {boundaries : JsMap JsString ℕ}
    {unauthenticatedConnections : List ℕ} {readings : ℕ} {providers : List BoundProvider} :
    Shrinks w { w with sessions, boundaries, unauthenticatedConnections, readings, providers } :=
  ⟨rfl, fun _ _ h => h, rfl, Nat.le_refl _, rfl, id⟩

/-- A draw reads the random source. -/
theorem shrinks_draws {n : ℕ} (hn : w.draws ≤ n) : Shrinks w { w with draws := n } :=
  ⟨rfl, fun _ _ h => h, rfl, hn, rfl, id⟩

/-- `consume` takes away one challenge at most. -/
theorem shrinks_consume (place : ℕ) : Shrinks w (w.consume place) := by
  have hregistry : w.Consistent → (w.consume place).Consistent :=
    fun ⟨_, h⟩ => ⟨_, h.consume place⟩
  revert hregistry
  unfold consume
  split
  case h_1 => exact fun _ => .refl w
  case h_2 record _ =>
    split_ifs
    · exact fun _ => .refl w
    refine fun hregistry =>
      ⟨rfl, fun id place' hget => ?_, rfl, Nat.le_refl _, rfl, hregistry⟩
    rw [JsMap.get_delete] at hget
    split_ifs at hget
    exact hget

/-- The mark is in the part of a record that may change. -/
theorem shrinks_markVerifying (place : ℕ) : Shrinks w (w.markVerifying place) := by
  have hreserved : (w.markVerifying place).reserved = w.reserved := by
    refine List.ext_getElem? fun n => ?_
    simp only [TrustWorld.reserved, markVerifying, List.getElem?_map, List.getElem?_modify]
    cases w.heap[n]? with
    | none => rfl
    | some record => by_cases hn : place = n <;> simp [hn]
  refine ⟨hreserved, fun _ _ h => h, rfl, Nat.le_refl _, rfl, ?_⟩
  rintro ⟨outstanding, h⟩
  refine ⟨outstanding, ?_⟩
  unfold Registers
  rw [hreserved]
  exact h

/-- A session is no part of the registry. -/
theorem shrinks_removeSession (identity : ℕ) : Shrinks w (w.removeSession identity) := by
  unfold removeSession
  split
  · exact .refl w
  · exact w.shrinks_elsewhere

/-- What each round of a loop takes away, the loop takes away. -/
theorem shrinks_foldl {α : Type} {f : TrustWorld → α → TrustWorld}
    (hf : ∀ w a, Shrinks w (f w a)) (l : List α) : Shrinks w (l.foldl f w) := by
  induction l generalizing w with
  | nil => exact .refl w
  | cons a l ih => exact (hf w a).trans (ih (f w a))

/-- The sweep consumes challenges. -/
theorem shrinks_removeExpiredChallenges (now : ℤ) (exceptId : Option JsString) :
    Shrinks w (w.removeExpiredChallenges now exceptId) := by
  refine w.shrinks_foldl (fun w place => ?_) _
  unfold removeIfExpired
  split
  · exact .refl w
  · split_ifs
    · exact w.shrinks_consume place
    · exact .refl w

/-- The sweep of the sessions removes sessions. -/
theorem shrinks_removeExpiredSessions (now : ℤ) : Shrinks w (w.removeExpiredSessions now) := by
  refine w.shrinks_foldl (fun w entry => ?_) _
  split_ifs
  · exact w.shrinks_removeSession entry.1
  · exact .refl w

end TrustWorld

/-- The cleanup of a call that failed: its challenge is consumed, and its place in the limiter free. -/
theorem Shrinks.cleanup {w w' : TrustWorld} (h : Shrinks w w') (place identity : ℕ) :
    Shrinks w ((w'.consume place).release identity) :=
  (h.trans (w'.shrinks_consume place)).trans (w'.consume place).shrinks_elsewhere

/-- Code that takes away at most, whatever state it starts in. -/
def Quiet {α : Type} (t : TrustCode α) : Prop := ∀ w, t.Ensures (fun _ w' => Shrinks w w') w

namespace Quiet

variable {α β : Type} {t : TrustCode α} {f : α → TrustCode β}

/-- A value. -/
theorem pure (a : α) : Quiet (Pure.pure a : TrustCode α) := fun w => .refl w

/-- An error. -/
theorem throw (e : RuntimeTrustErrorCode) : Quiet (MonadExcept.throw e : TrustCode α) :=
  fun w => .refl w

/-- A look at the state. -/
theorem get : Quiet (MonadState.get : TrustCode TrustWorld) := fun w => .refl w

/-- A change that takes away at most. -/
theorem modifies {g : TrustWorld → TrustWorld} (hg : ∀ w, Shrinks w (g w)) :
    Quiet (modify g : TrustCode Unit) := fun w => hg w

/-- A pure check. -/
theorem ofExcept (x : TrustExcept α) : Quiet (MonadExcept.ofExcept x : TrustCode α) :=
  fun w => Atomic.Ensures.liftExcept (Shrinks.refl w)

/-- Quiet code in front of code that ensures something. -/
theorem ensures {w₀ w : TrustWorld} {Q : TrustExcept β → TrustWorld → Prop}
    (ht : Quiet t) (hw : Shrinks w₀ w) (hok : ∀ a w', Shrinks w₀ w' → (f a).Ensures Q w')
    (herror : ∀ e w', Shrinks w₀ w' → Q (.error e) w') : (t >>= f).Ensures Q w :=
  (ht w).bind (fun a w' h => hok a w' (hw.trans h)) fun e w' h => herror e w' (hw.trans h)

/-- Two pieces in sequence. -/
theorem bind (ht : Quiet t) (hf : ∀ a, Quiet (f a)) : Quiet (t >>= f) := fun w =>
  ht.ensures (.refl w) (fun a w' h => (hf a w').mono fun _ _ h' => h.trans h') fun _ _ h => h

/-- Code behind a guard. -/
theorem guarded {p : Prop} [Decidable p] {e : RuntimeTrustErrorCode} {f : Unit → TrustCode α}
    (hf : Quiet (f ())) :
    Quiet (if p then (MonadExcept.throw e : TrustCode Unit) >>= f else f ()) :=
  fun w => .guarded (fun _ => .refl w) fun _ => hf w

/-- Either of two branches. -/
theorem ite {p : Prop} [Decidable p] {t' : TrustCode α} (h : Quiet t) (h' : Quiet t') :
    Quiet (if p then t else t') := by
  split_ifs
  · exact h
  · exact h'

/-- Code that takes away at most and ensures more of its value. -/
theorem of_ends {A : TrustWorld → α → TrustWorld → Prop}
    (h : ∀ w, t.Ensures (Ends (Shrinks w) fun a w' => Shrinks w w' ∧ A w a w') w) : Quiet t :=
  fun w => (h w).mono fun r w' hr => by
    cases r with
    | error e => exact hr
    | ok a => exact hr.1

/-- A cleanup that takes away at most. -/
theorem onError {cleanup : TrustWorld → TrustWorld} (hcleanup : ∀ w, Shrinks w (cleanup w))
    (h : Quiet t) : Quiet (Atomic.onError cleanup t) := fun w =>
  Atomic.Ensures.onError (h w) (fun _ _ h => h) fun _ w' h => h.trans (hcleanup w')

end Quiet

/-! ## The pieces of the calls -/

variable {call : TrustCall}

section Pieces

variable (host : AuthorityHost)

/-- The clock is read. -/
theorem quiet_nowNs : Quiet (nowNs host) :=
  Quiet.get.bind fun _ => Quiet.bind (.modifies fun w => w.shrinks_elsewhere) fun _ => .pure _

/-- The sweep of the registry is quiet. -/
theorem quiet_removeExpired (exceptId : Option JsString) : Quiet (removeExpired host exceptId) :=
  (quiet_nowNs host).bind fun now =>
    .modifies fun w => w.shrinks_removeExpiredChallenges now exceptId

/-- The sweep of the sessions is quiet. -/
theorem quiet_removeExpiredSessions : Quiet (removeExpiredSessions host) :=
  (quiet_nowNs host).bind fun now => .modifies fun w => w.shrinks_removeExpiredSessions now

variable (connection : RuntimeConnectionContext)

/-- The check of the handshake's age reads the clock. -/
theorem quiet_assertHandshakeLifetime : Quiet (assertHandshakeLifetime host connection) :=
  (quiet_nowNs host).bind fun _ => .ite (.throw _) (.pure _)

/-- A draw moves on in the random source and changes nothing else, and the bytes that it returns are
not in use and come from a reading that was not used before. -/
theorem drawUnused_ensures (used : List Byte → Bool) (attempts : ℕ) (w : TrustWorld) :
    (drawUnused host used attempts).Ensures (fun r w' => ∃ n, w.draws ≤ n ∧
      w' = { w with draws := n } ∧ ∀ bytes, r = .ok bytes → used bytes = false ∧
        ∃ k, w.draws ≤ k ∧ k < n ∧ bytes = host.bytes k) w := by
  induction attempts generalizing w with
  | zero => exact .throw ⟨_, Nat.le_refl _, rfl, nofun⟩
  | succ attempts ih =>
    have hdraw : (randomBytes host).Ensures (fun r w' => w' = { w with draws := w.draws + 1 } ∧
        r = .ok (host.bytes w.draws)) w := ⟨rfl, rfl⟩
    refine hdraw.bind (fun bytes w₁ ⟨hw₁, hbytes⟩ => ?_) fun e w₁ h => nomatch h.2
    subst hw₁
    refine .guarded (fun _ => ⟨_, Nat.le_succ _, rfl, nofun⟩) fun _ => ?_
    by_cases hused : used bytes
    · simp only [hused, if_true]
      refine (ih _).mono fun r w₂ ⟨n, hn, hw₂, hr⟩ => ⟨n, Nat.le_of_succ_le hn, hw₂, ?_⟩
      intro bytes' hbytes'
      obtain ⟨hunused, k, hk, hlt, heq⟩ := hr bytes' hbytes'
      exact ⟨hunused, k, Nat.le_of_succ_le hk, hlt, heq⟩
    · simp only [hused]
      refine ⟨_, Nat.le_succ _, rfl, fun bytes' hbytes' => ?_⟩
      cases hbytes'
      exact ⟨by simpa using hused, w.draws, Nat.le_refl _, Nat.lt_succ_self _, Except.ok.inj hbytes⟩

/-- Draws take nothing away. -/
theorem quiet_drawUnused (used : List Byte → Bool) (attempts : ℕ) :
    Quiet (drawUnused host used attempts) := fun w =>
  (drawUnused_ensures host used attempts w).mono fun _ w' ⟨n, hn, hw', _⟩ => by
    rw [hw']
    exact w.shrinks_draws hn

/-- What `issue` has checked when it returns a record: the connection is open, the challenge has a
new identifier, and the payload is its encoding. -/
structure Issues (w w' : TrustWorld) (snapshot : AdmissibleRuntimeTrustSnapshot)
    (runtimeInstanceId : JsString) (connection : RuntimeConnectionContext)
    (record : ReservedRuntimeChallenge) : Prop where
  /-- Behind its sweep and its draws, `issue` adds the record. -/
  added : ∃ w₁, Shrinks w w₁ ∧ w' = w₁.addRecord record
  /-- The connection is open. -/
  opened : connection.identity ∉ w.closedConnections
  /-- The identifier was drawn in this call. -/
  drawn : ∃ k, w.draws ≤ k ∧ k < w'.draws ∧
    record.challenge.challengeId = identifierOf "ch1" (host.bytes k)
  /-- The payload is the encoding of the challenge. -/
  encoded : encodeRuntimeTrustChallenge record.challenge = .ok record.canonicalPayload
  /-- The record keeps the snapshot that the challenge was issued on. -/
  snapshot : record.initialSnapshot = snapshot
  /-- The record is one of the connection. -/
  connection : record.connection = connection
  /-- The challenge is for the runtime instance that said hello. -/
  runtimeInstanceId : record.challenge.runtimeInstanceId = runtimeInstanceId
  /-- The collections of the registry still belong together. -/
  registry : w.Consistent → w'.Consistent

/-- `issue` takes away at most when it throws, and otherwise has checked all of `Issues`. -/
theorem issue_ensures (snapshot : AdmissibleRuntimeTrustSnapshot) (runtimeInstanceId : JsString)
    (connection : RuntimeConnectionContext) (w : TrustWorld) :
    (issue host snapshot runtimeInstanceId connection).Ensures (Ends (Shrinks w) fun record w' =>
      Issues host w w' snapshot runtimeInstanceId connection record) w := by
  refine (quiet_removeExpired host none).ensures (.refl w) (fun _ w₁ h₁ => ?_) fun _ _ h => h
  refine (quiet_nowNs host).ensures h₁ (fun now w₂ h₂ => ?_) fun _ _ h => h
  refine .guarded (fun _ => h₂) fun _ => .getBind (.guarded (fun _ => h₂) fun hfree => ?_)
  simp only [not_or, Nat.not_le, JsMap.has, Bool.not_eq_true, Option.isSome_eq_false_iff,
    Option.isNone_iff_eq_none, List.contains_eq_mem, decide_eq_false_iff_not] at hfree
  obtain ⟨hopen, hsize, hissuers, hconnections⟩ := hfree
  -- the identifier and the nonce are drawn one after the other, each from readings of its own
  refine (drawUnused_ensures host _ 8 w₂).bind (fun bytes w₃ ⟨n, hn, hw₃, hbytes⟩ => ?_)
    fun _ _ ⟨n, hn, hw₃, _⟩ => by rw [hw₃]; exact h₂.trans (w₂.shrinks_draws hn)
  obtain ⟨hid, k, hk, hlt, hbytes⟩ := hbytes bytes rfl
  subst hw₃
  have h₃ := h₂.trans (w₂.shrinks_draws hn)
  refine (drawUnused_ensures host _ 8 _).bind (fun nonce w₄ ⟨n', hn', hw₄, hnonce⟩ => ?_)
    fun _ _ ⟨n', hn', hw₄, _⟩ => by rw [hw₄]; exact h₃.trans (TrustWorld.shrinks_draws _ hn')
  obtain ⟨hnonce, -⟩ := hnonce nonce rfl
  subst hw₄
  have h₄ := h₃.trans (TrustWorld.shrinks_draws _ hn')
  refine .checkBind (fun payload hpayload => .modifyBind (.pure ?_)) fun _ => h₄
  exact
    { added := ⟨_, h₄, rfl⟩
      opened := by rw [← h₂.closed]; exact hopen
      drawn := ⟨k, h₂.draws.trans hk, hlt.trans_le hn', by rw [← hbytes]; rfl⟩
      encoded := hpayload
      snapshot := rfl
      connection := rfl
      runtimeInstanceId := rfl
      registry := fun hconsistent => by
        obtain ⟨outstanding, h⟩ := h₂.registry hconsistent
        refine ⟨_, TrustWorld.Registers.addRecord h rfl hsize ?_ hissuers hconnections ?_⟩
        · simpa [JsMap.has, challengeOf] using hid
        · simpa [challengeOf] using hnonce }

/-- What a `verifyResponse` that waits for its snapshot knows of the record it reserved: whose it is,
and that the two readings of the clock that it made were before the deadline of the record and within
the handshake of the connection. -/
def Held (w : TrustWorld) : TrustCall → Prop
  | .resumeVerifyResponse place checkedAt response connection =>
    ∃ record, w.reserved[place]? = some record ∧
      record.connection.identity = connection.identity ∧
      record.challenge.runtimeInstanceId = response.runtimeInstanceId ∧
      host.nowNs checkedAt < record.deadlineNs ∧
      ¬ outsideHandshake (host.nowNs (checkedAt + 1)) connection
  | _ => True

/-- What is held of a record stays so. -/
theorem Held.of_reserved {w w' : TrustWorld} (h : Held host w call)
    (hreserved : w.reserved <+: w'.reserved) : Held host w' call := by
  cases call with
  | resumeVerifyResponse place checkedAt response connection =>
    obtain ⟨record, hrecord, hmatches⟩ := h
    obtain ⟨hlt, -⟩ := List.getElem?_eq_some_iff.mp hrecord
    obtain ⟨rest, hrest⟩ := hreserved
    refine ⟨record, ?_, hmatches⟩
    rw [← hrest, List.getElem?_append_left hlt]
    exact hrecord
  | _ => trivial

/-- A reading of the clock. -/
theorem nowNs_ensures (w : TrustWorld) : (nowNs host).Ensures (fun r w' => Shrinks w w' ∧
    r = .ok (host.nowNs w.readings) ∧ w'.readings = w.readings + 1) w :=
  ⟨quiet_nowNs host w, rfl, rfl⟩

/-- A reserved record is one of the connection and of the runtime instance, and the last reading of
the clock was before its deadline. -/
theorem reserve_ensures (response : RuntimeTrustResponse) (connection : RuntimeConnectionContext)
    (w : TrustWorld) :
    (reserve host response connection).Ensures (Ends (Shrinks w) fun place w' => Shrinks w w' ∧
      ∃ record n, w'.reserved[place]? = some record ∧
        record.connection.identity = connection.identity ∧
        record.challenge.runtimeInstanceId = response.runtimeInstanceId ∧
        host.nowNs n < record.deadlineNs ∧ w'.readings = n + 1) w := by
  refine (quiet_removeExpired host _).ensures (.refl w) (fun _ w₁ h₁ => ?_) fun _ _ h => h
  refine .getBind ?_
  split
  case h_1 => exact h₁
  case h_2 place _ =>
    split
    case h_1 => exact h₁
    case h_2 record hrecord =>
      refine .guarded (fun _ => h₁) fun _ => ?_
      refine (nowNs_ensures host w₁).bind (fun now w₂ hread => ?_) fun _ _ h => h₁.trans h.1
      obtain ⟨h₂, hnow, hreadings⟩ := hread
      have hshrinks : Shrinks w w₂ := h₁.trans h₂
      split_ifs with hexpired hforeign
      · exact hshrinks.trans (w₂.shrinks_consume place)
      · exact (hshrinks.trans (w₂.shrinks_markVerifying place)).trans
          ((w₂.markVerifying place).shrinks_consume place)
      have hmark := h₂.trans (w₂.shrinks_markVerifying place)
      rw [not_or, not_or, not_not, not_not] at hforeign
      have hplace : (w₂.markVerifying place).reserved[place]? =
          some record.toReservedRuntimeChallenge := by
        rw [hmark.reserved, TrustWorld.reserved, List.getElem?_map, hrecord]
        rfl
      rw [Except.ok.inj hnow] at hexpired
      exact .modifyBind (.pure ⟨h₁.trans hmark, record.toReservedRuntimeChallenge, w₁.readings, hplace,
        hforeign.1, hforeign.2.1, not_le.mp hexpired, hreadings⟩)

/-- The check of a session removes it at most. -/
theorem quiet_requireCurrent (identity : ℕ) (snapshot : AdmissibleRuntimeTrustSnapshot) :
    Quiet (requireCurrent host identity snapshot) := by
  refine Quiet.get.bind fun w => ?_
  split
  · exact .throw _
  · refine (quiet_nowNs host).bind fun now => .ite ?_ ?_
    · exact Quiet.bind (.modifies fun w => w.shrinks_removeSession identity) fun _ => .throw _
    · exact Quiet.bind (.modifies fun w => w.shrinks_elsewhere) fun _ => .pure _

variable (hello : RuntimeTrustHello)

/-- Up to its wait, `issueChallenge` takes a place in the limiter. -/
theorem quiet_beginIssueChallenge (connection : RuntimeConnectionContext) :
    Quiet (beginIssueChallenge host hello connection) :=
  .guarded <| Quiet.bind (.ofExcept _) fun _ => Quiet.get.bind fun _ =>
    .guarded <| .guarded <|
      Quiet.bind (.modifies fun w => w.shrinks_elsewhere) fun _ =>
        .onError (fun w => w.shrinks_elsewhere) <|
          Quiet.bind (.ofExcept _) fun _ => quiet_assertHandshakeLifetime host connection

/-- Up to its wait, `requireCurrentSession` looks for the session. -/
theorem quiet_beginRequireCurrentSession : Quiet (beginRequireCurrentSession host connection) := by
  refine .guarded (Quiet.bind (.ofExcept _) fun _ => ?_)
  refine (quiet_removeExpiredSessions host).bind fun _ => Quiet.get.bind fun w => ?_
  split
  · exact .throw _
  · exact .pure _

/-- Behind its wait, `requireCurrentSession` removes the session at most. -/
theorem quiet_resumeRequireCurrentSession (read : TrustExcept (Option RuntimeTrustSnapshot)) :
    Quiet (resumeRequireCurrentSession host connection read) := by
  have hbody := Quiet.bind (.ofExcept read) fun current =>
    Quiet.bind (.ofExcept (assertAdmissibleRuntimeTrustSnapshot host current)) fun snapshot =>
      quiet_requireCurrent host connection.identity snapshot
  exact fun w => (hbody w).tryCatch (fun _ _ h => h) fun _ w' h =>
    h.trans (w'.shrinks_removeSession connection.identity)

/-- `verifyResponse` waits for its snapshot with a reserved record, and its last two readings of the
clock were those of its deadline checks. -/
theorem beginVerifyResponse_ensures (response : RuntimeTrustResponse)
    (connection : RuntimeConnectionContext) (w : TrustWorld) :
    (beginVerifyResponse host response connection).Ensures (Ends (Shrinks w) fun place w' =>
      Shrinks w w' ∧
        Held host w' (.resumeVerifyResponse place (w'.readings - 2) response connection)) w := by
  refine .guarded (fun _ => .refl w) fun _ => .checkBind (fun _ _ => ?_) fun _ => .refl w
  refine (reserve_ensures host response connection w).bind
    (fun place w₁ ⟨h₁, record, n, hplace, hconnection, hruntime, hbefore, hreadings⟩ => ?_)
    fun _ _ h => h
  -- the checks read the clock once more, and their cleanup takes away at most
  have hlifetime : (assertHandshakeLifetime host connection).Ensures (Ends (Shrinks w₁) fun _ w₂ =>
      Shrinks w₁ w₂ ∧ w₂.readings = n + 2 ∧
        ¬ outsideHandshake (host.nowNs (n + 1)) connection) w₁ := by
    refine (nowNs_ensures host w₁).bind (fun now w₂ ⟨h₂, hnow, hnext⟩ => ?_) fun _ _ h => h.1
    rw [hreadings] at hnow hnext
    rw [Except.ok.inj hnow]
    split_ifs with houtside
    · exact h₂
    · exact ⟨h₂, hnext, houtside⟩
  have hchecks := (Ensures.checkBind (x := assertIssuerPeer connection.peerCredentials)
    (fun _ _ => hlifetime) fun _ => Shrinks.refl w₁).onError (fun _ _ h => h)
    fun _ _ h => h.cleanup place connection.identity
  refine hchecks.bind (fun _ w₂ ⟨h₂, hreadings₂, hinside⟩ => .pure ⟨h₁.trans h₂, ?_⟩)
    fun _ _ h => h₁.trans h
  rw [hreadings₂]
  exact ⟨record, by rw [h₂.reserved, hplace], hconnection, hruntime, hbefore, hinside⟩

/-- The loop over the sessions reads no clock. -/
theorem readings_removeExpiredSessions (w : TrustWorld) (now : ℤ) :
    (w.removeExpiredSessions now).readings = w.readings := by
  unfold TrustWorld.removeExpiredSessions
  induction w.sessions.entries generalizing w with
  | nil => rfl
  | cons entry entries ih =>
    rw [List.foldl_cons, ih]
    split_ifs
    · unfold TrustWorld.removeSession
      split <;> rfl
    · rfl

/-- A new session carries the runtime instance it was asked for, and the second reading of the clock
from where `create` started. -/
theorem createSession_ensures (snapshot : AdmissibleRuntimeTrustSnapshot)
    (runtimeInstanceId : JsString) (connection : RuntimeConnectionContext) (w : TrustWorld) :
    (createSession host snapshot runtimeInstanceId connection).Ensures
      (Ends (Shrinks w) fun session w' => Shrinks w w' ∧
        session.runtimeInstanceId = runtimeInstanceId ∧
        session.createdMonotonicNs = host.nowNs (w.readings + 1)) w := by
  have hreading : (removeExpiredSessions host).Ensures (fun _ w' => Shrinks w w' ∧
      w'.readings = w.readings + 1) w :=
    ⟨quiet_removeExpiredSessions host w, readings_removeExpiredSessions _ _⟩
  refine hreading.bind (fun _ w₁ ⟨h₁, hreadings⟩ => ?_) fun _ _ h => h.1
  refine .getBind (.guarded (fun _ => h₁) fun _ => .guarded (fun _ => h₁) fun _ => ?_)
  refine (nowNs_ensures host w₁).bind (fun now w₂ ⟨h₂, hnow₂, _⟩ => ?_) fun _ _ h => h₁.trans h.1
  refine (quiet_drawUnused host _ 8 w₂).bind (fun bytes w₃ h₃ => ?_)
    fun _ _ h => (h₁.trans h₂).trans h
  refine .modifyBind (.pure ⟨((h₁.trans h₂).trans h₃).trans w₃.shrinks_elsewhere, rfl, ?_⟩)
  rw [← hreadings]
  exact Except.ok.inj hnow₂

variable {admissible : AdmissibleRuntimeTrustSnapshot} {snapshot : Option RuntimeTrustSnapshot}

/-- An admissible snapshot's key is canonical. -/
theorem canonical_of_assertAdmissible
    (h : assertAdmissibleRuntimeTrustSnapshot host snapshot = .ok admissible) :
    host.canonicalEd25519PublicKey admissible.publicKey =
      .ok (admissible.publicKey, admissible.publicKeyFingerprint) := by
  cases snapshot with
  | none => cases h
  | some snapshot =>
    -- the checks in front of the key's do not matter
    iterate 5 obtain ⟨-, -, h⟩ := except_bind_eq_ok.mp h
    iterate 5 obtain ⟨-, h⟩ := except_unless_eq_ok.mp h
    obtain ⟨activeKeyId, -, h⟩ := except_bind_eq_ok.mp h
    iterate 3 obtain ⟨-, h⟩ := except_unless_eq_ok.mp h
    iterate 7 obtain ⟨_, -, h⟩ := except_bind_eq_ok.mp h
    obtain ⟨canonical, hmetadata, h⟩ := except_bind_eq_ok.mp h
    obtain ⟨hsame, h⟩ := except_unless_eq_ok.mp h
    rw [not_or, not_not, not_not] at hsame
    unfold assertEd25519PublicKeyMetadata at hmetadata
    obtain ⟨-, hmetadata⟩ := except_unless_eq_ok.mp hmetadata
    obtain ⟨-, hmetadata⟩ := except_unless_eq_ok.mp hmetadata
    obtain ⟨-, -, hmetadata⟩ := except_bind_eq_ok.mp hmetadata
    obtain ⟨canonical', hcanonical, hmetadata⟩ := except_bind_eq_ok.mp hmetadata
    obtain ⟨-, hmetadata⟩ := except_unless_eq_ok.mp hmetadata
    have hreturned : canonical' = canonical := Except.ok.inj hmetadata
    rw [hreturned] at hcanonical
    cases h
    rw [← hsame.1, ← hsame.2]
    rw [← hsame.1] at hcanonical
    exact hcanonical

/-- Admissible snapshots whose fields all agree are the same. -/
theorem eq_of_sameAdmissibleSnapshot {left right : AdmissibleRuntimeTrustSnapshot}
    (h : sameAdmissibleSnapshot left right = true) : left = right := by
  have heq := eq_of_beq h
  simp only [AdmissibleRuntimeTrustSnapshot.toSnapshot, RuntimeTrustSnapshot.mk.injEq,
    Option.some.injEq] at heq
  obtain ⟨hauthority, hissuer, hboundary, hepoch, -, hstate, hactive, -, -, -, -, hversion, -, -, -,
    hkey, hfingerprint, -⟩ := heq
  cases left
  cases right
  simp_all

/-- What `verifyResponse` has checked when it admits. -/
structure Admits (w : TrustWorld) (place : ℕ) (record : ChallengeRecord) (a : Admission) :
    Prop where
  /-- The record is the one that the call reserved. -/
  heap : w.heap[place]? = some record
  /-- The registry still holds it. -/
  reserved : isReserved w place = true
  /-- Its challenge is the one that admits. -/
  challenge : a.challenge = record.challenge
  /-- Its snapshot is the one at issue. -/
  initialSnapshot : a.initialSnapshot = record.initialSnapshot
  /-- The snapshot of the call is admissible, and is that one again. -/
  admissible : assertAdmissibleRuntimeTrustSnapshot host a.currentSnapshot =
    .ok record.initialSnapshot
  /-- The holder of its key signed the payload of the record. -/
  signed : w.hasSigned record.initialSnapshot.publicKey record.canonicalPayload = true
  /-- The session is one of the runtime instance that responded. -/
  runtimeInstanceId : a.session.runtimeInstanceId = a.response.runtimeInstanceId
  /-- The session begins at the second reading of the clock in the call. -/
  createdMonotonicNs : a.session.createdMonotonicNs = host.nowNs (w.readings + 1)

/-- The snapshot that `requireFreshAdmissibleSnapshot` lets pass is admissible. -/
theorem admissible_of_requireFresh
    (h : requireFreshAdmissibleSnapshot host snapshot = .ok admissible) :
    assertAdmissibleRuntimeTrustSnapshot host snapshot = .ok admissible := by
  unfold requireFreshAdmissibleSnapshot at h
  split at h
  case h_1 hok => rw [hok, Except.ok.inj h]
  case h_2 => cases h

/-- A signature that verifies is over bytes that the holder of the key signed. -/
theorem hasSigned_of_verify {w : TrustWorld} {payload signature : List Byte} {valid : Bool}
    (hadmissible : assertAdmissibleRuntimeTrustSnapshot host snapshot = .ok admissible)
    (h : verifyRuntimeTrustSignature host w admissible.publicKey payload signature valid =
      .ok true) : w.hasSigned admissible.publicKey payload = true := by
  unfold verifyRuntimeTrustSignature at h
  obtain ⟨-, h⟩ := except_unless_eq_ok.mp h
  obtain ⟨canonical, hcanonical, h⟩ := except_bind_eq_ok.mp h
  rw [canonical_of_assertAdmissible host hadmissible] at hcanonical
  have hverified := Except.ok.inj h
  rw [← Except.ok.inj hcanonical, Bool.and_eq_true] at hverified
  exact hverified.2

/-- `verifyResponse` takes away at most, or it admits, and then the challenge is gone. -/
theorem resumeVerifyResponse_ensures (place : ℕ) (response : RuntimeTrustResponse)
    (connection : RuntimeConnectionContext) (read : TrustExcept (Option RuntimeTrustSnapshot))
    (valid : Bool) (w : TrustWorld) :
    (resumeVerifyResponse host place response connection read valid).Ensures (fun _ w' =>
      Shrinks w w' ∨ ∃ w₁ record a, Shrinks w w₁ ∧ Admits host w place record a ∧
        a.response = response ∧ a.connection = connection ∧
        w' = ((w₁.record (.admitted a)).consume place).release connection.identity) w := by
  -- wherever the call throws before it has a session, only its cleanup has happened
  have hnothing := (Shrinks.refl w).cleanup place connection.identity
  refine .andFinally (.checkBind (fun current _ => ?_) fun _ => .inl hnothing)
  refine .checkBind (fun admissible hfresh => ?_) fun _ => .inl hnothing
  refine .getBind ?_
  split
  case h_1 => exact .inl hnothing
  case h_2 record hrecord =>
    refine .guarded (fun _ => .inl hnothing) fun hsame => ?_
    refine .checkBind (fun verified hverify => ?_) fun _ => .inl hnothing
    refine .guarded (fun _ => .inl hnothing) fun hverified => ?_
    refine .guarded (fun _ => .inl hnothing) fun hreserved => ?_
    refine (createSession_ensures host admissible response.runtimeInstanceId connection w).bind
      (fun session w₁ ⟨h₁, hruntime, hcreated⟩ => ?_) fun _ _ h => .inl (h.cleanup place _)
    rw [not_or, Bool.not_eq_false, Bool.not_eq_false] at hsame
    rw [Bool.not_eq_false] at hverified hreserved
    have hadmissible := admissible_of_requireFresh host hfresh
    rw [hverified] at hverify
    have hsigned := hasSigned_of_verify host hadmissible hverify
    have hinitial := eq_of_sameAdmissibleSnapshot hsame.1
    rw [← hinitial] at hadmissible hsigned
    refine .modifyBind (.pure (.inr ⟨w₁, record, _, h₁, ?_, rfl, rfl, rfl⟩))
    exact ⟨hrecord, hreserved, rfl, rfl, hadmissible, hsigned, hruntime, hcreated⟩

/-- What `issue` checked, it checked of what was there before other records went away. -/
theorem Issues.of_shrinks {w w₁ w' : TrustWorld} {snapshot : AdmissibleRuntimeTrustSnapshot}
    {runtimeInstanceId : JsString} {connection : RuntimeConnectionContext}
    {record : ReservedRuntimeChallenge} (hw : Shrinks w w₁)
    (h : Issues host w₁ w' snapshot runtimeInstanceId connection record) :
    Issues host w w' snapshot runtimeInstanceId connection record := by
  obtain ⟨w₂, hshrinks, hadded⟩ := h.added
  obtain ⟨k, hk, hlt, hid⟩ := h.drawn
  exact
    { added := ⟨w₂, hw.trans hshrinks, hadded⟩
      opened := by rw [← hw.closed]; exact h.opened
      drawn := ⟨k, hw.draws.trans hk, hlt, hid⟩
      encoded := h.encoded
      snapshot := h.snapshot
      connection := h.connection
      runtimeInstanceId := h.runtimeInstanceId
      registry := fun hconsistent => h.registry (hw.registry hconsistent) }

/-- What `issueChallenge` does when it returns a challenge. -/
def IssuesTo (w w' : TrustWorld) (hello : RuntimeTrustHello)
    (connection : RuntimeConnectionContext) : Prop :=
  ∃ w₁ snapshot record, Issues host w w₁ snapshot hello.runtimeInstanceId connection record ∧
    w' = w₁.record (.issued hello connection record.challenge snapshot
      (record.deadlineNs - challengeLifetimeNs))

variable (connection : RuntimeConnectionContext)
  (read : TrustExcept (Option RuntimeTrustSnapshot))

/-- Behind its wait, `issueChallenge` takes away at most when it throws, or issues. -/
theorem issueFromSnapshot_ensures (w : TrustWorld) :
    (issueFromSnapshot host hello connection read).Ensures (Ends (Shrinks w) fun _ w' =>
      IssuesTo host w w' hello connection) w := by
  refine .checkBind (fun snapshot _ => ?_) fun _ => .refl w
  refine .checkBind (fun snapshot _ => ?_) fun _ => .refl w
  refine .checkBind (fun _ _ => ?_) fun _ => .refl w
  refine (quiet_removeExpiredSessions host).ensures (.refl w) (fun _ w₁ h₁ => ?_) fun _ _ h => h
  refine .getBind (.guarded (fun _ => h₁) fun _ => ?_)
  refine (quiet_removeExpiredSessions host).ensures h₁ (fun _ w₂ h₂ => ?_) fun _ _ h => h
  refine .getBind (.guarded (fun _ => h₂) fun _ => ?_)
  refine (issue_ensures host snapshot hello.runtimeInstanceId connection w₂).bind
    (fun record w₃ h₃ => ?_) fun _ _ h => h₂.trans h
  exact .modifyBind (.pure ⟨w₃, snapshot, record, Issues.of_shrinks host h₂ h₃, rfl⟩)

/-- `issueChallenge` takes away at most, or it issues a challenge. -/
theorem resumeIssueChallenge_ensures (w : TrustWorld) :
    (resumeIssueChallenge host hello connection read).Ensures (fun _ w' => Shrinks w w' ∨
      IssuesTo host w w' hello connection) w :=
  (issueFromSnapshot_ensures host hello connection read w).onError (fun _ _ h => .inr h)
    fun _ w' h => .inl (h.trans w'.shrinks_elsewhere)

end Pieces

/-- A closed connection loses its challenge. -/
theorem TrustWorld.shrinks_closeChallenges (w : TrustWorld) (identity : ℕ) :
    Shrinks { w with closedConnections := identity :: w.closedConnections }
      (w.closeChallenges identity) := by
  unfold TrustWorld.closeChallenges
  dsimp only
  split
  · exact .refl _
  · exact TrustWorld.shrinks_consume _ _

/-- A closed connection is marked as closed, and then loses its challenge and its session. -/
theorem closeConnection_ensures (identity : ℕ) (w : TrustWorld) :
    (closeConnection identity).Ensures (fun _ w' => ∃ w₁,
      Shrinks { w with closedConnections := identity :: w.closedConnections } w₁ ∧
        w' = w₁.record (.closed identity)) w :=
  .modifies ⟨_, (w.shrinks_closeChallenges identity).trans
    ((TrustWorld.shrinks_elsewhere _).trans (TrustWorld.shrinks_removeSession _ identity)), rfl⟩

/-- A proof is over the encoding of its challenge. -/
theorem createChallengeProof_ensures (place : ℕ) (challenge : RuntimeTrustChallenge)
    (connection : AuthorityConnection) (signature : List Byte) (w : TrustWorld) :
    (createChallengeProof place challenge connection signature).Ensures (fun _ w' =>
      Shrinks w w' ∨ ∃ w₁ publicKey payload, Shrinks w w₁ ∧
        encodeRuntimeTrustChallenge challenge = .ok payload ∧
        w' = w₁.record (.proved publicKey challenge payload)) w := by
  refine .getBind ?_
  split
  case h_1 => exact .inl (.refl w)
  case h_2 provider _ =>
    refine .checkBind (fun payload hpayload => ?_) fun _ => .inl (.refl w)
    refine .guarded (fun _ => .inl (.refl w)) fun _ => .modifyBind (.pure (.inr ?_))
    unfold checkChallenge at hpayload
    iterate 8 obtain ⟨-, hpayload⟩ := except_unless_eq_ok.mp hpayload
    exact ⟨w.setProvider place _, _, payload, w.shrinks_elsewhere, hpayload, rfl⟩

/-! ## All steps -/

/-- What a piece of a call can do to the world. -/
inductive TrustStep (host : AuthorityHost) (w : TrustWorld) : TrustCall → TrustWorld → Prop
  /-- Things are taken away at most. -/
  | quiet {call : TrustCall} {w' : TrustWorld} (h : Shrinks w w') : TrustStep host w call w'
  /-- A challenge is issued. -/
  | issued {hello : RuntimeTrustHello} {connection : RuntimeConnectionContext} {w₁ : TrustWorld}
      {snapshot : AdmissibleRuntimeTrustSnapshot} {record : ReservedRuntimeChallenge}
      (h : Issues host w w₁ snapshot hello.runtimeInstanceId connection record) :
      TrustStep host w (.resumeIssueChallenge hello connection)
        (w₁.record (.issued hello connection record.challenge snapshot
          (record.deadlineNs - challengeLifetimeNs)))
  /-- A connection is closed. -/
  | closed {identity : ℕ} {w₁ : TrustWorld}
      (h : Shrinks { w with closedConnections := identity :: w.closedConnections } w₁) :
      TrustStep host w (.closeConnection identity) (w₁.record (.closed identity))
  /-- The authority restarts. -/
  | reset : TrustStep host w .resetForAuthorityRestart (w.clear.record .reset)
  /-- An issuer proves a challenge. -/
  | proved {place : ℕ} {challenge : RuntimeTrustChallenge} {connection : AuthorityConnection}
      {w₁ : TrustWorld} {publicKey : JsString} {payload : List Byte} (h : Shrinks w w₁)
      (hpayload : encodeRuntimeTrustChallenge challenge = .ok payload) :
      TrustStep host w (.createChallengeProof place challenge connection)
        (w₁.record (.proved publicKey challenge payload))
  /-- A connection is admitted. -/
  | admitted {place checkedAt : ℕ} {w₁ : TrustWorld} {record : ChallengeRecord} {a : Admission}
      (h : Shrinks w w₁) (hadmits : Admits host w place record a) :
      TrustStep host w (.resumeVerifyResponse place checkedAt a.response a.connection)
        (((w₁.record (.admitted a)).consume place).release a.connection.identity)

/-- Every piece does one of these. -/
theorem exec_step {host : AuthorityHost} {w w' : TrustWorld} {choice : TrustChoice}
    {r : TrustExcept (TrustAnswer call)}
    (h : call.exec host w choice = some (r, w')) : TrustStep host w call w' := by
  have hof : ∀ {α : Type} {t : TrustCode α} {r : TrustExcept α}
      {Q : TrustExcept α → TrustWorld → Prop},
      some (t.exec w) = some (r, w') → t.Ensures Q w → Q r w' := by
    intro α t r Q hexec hensures
    unfold Atomic.Ensures at hensures
    rw [Option.some.inj hexec] at hensures
    exact hensures
  -- a piece runs only with a choice of its own kind
  cases call <;> cases choice <;> try (cases h; done)
  case beginIssueChallenge.none hello connection =>
    exact .quiet (hof h (quiet_beginIssueChallenge host hello connection w))
  case resumeIssueChallenge.read hello connection answer =>
    rcases hof h (resumeIssueChallenge_ensures host hello connection answer w) with
      hquiet | ⟨w₁, snapshot, record, hissues, rfl⟩
    · exact .quiet hquiet
    · exact .issued hissues
  case beginVerifyResponse.none response connection =>
    cases h
    exact .quiet (Quiet.of_ends (beginVerifyResponse_ensures host response connection) w)
  case resumeVerifyResponse.verify place checkedAt response connection answer valid =>
    rcases hof h (resumeVerifyResponse_ensures host place response connection answer valid w) with
      hquiet | ⟨w₁, record, a, hshrinks, hadmits, rfl, rfl, rfl⟩
    · exact .quiet hquiet
    · exact .admitted hshrinks hadmits
  case beginRequireCurrentSession.none connection =>
    exact .quiet (hof h (quiet_beginRequireCurrentSession host connection w))
  case resumeRequireCurrentSession.read connection answer =>
    exact .quiet (hof h (quiet_resumeRequireCurrentSession host connection answer w))
  case closeConnection.none identity =>
    obtain ⟨w₁, hshrinks, rfl⟩ := hof h (closeConnection_ensures identity w)
    exact .closed hshrinks
  case createChallengeProof.sign place challenge connection signature =>
    rcases hof h (createChallengeProof_ensures place challenge connection signature w) with
      hquiet | ⟨w₁, publicKey, payload, hshrinks, hpayload, rfl⟩
    · exact .quiet hquiet
    · exact .proved hshrinks hpayload
  case resetForAuthorityRestart.none =>
    cases h
    exact .reset
  -- the providers are the issuers'; the registry does not know them
  case openProvider.none | closeProvider.none =>
    cases h
    exact .quiet w.shrinks_elsewhere

/-- No step takes back what was recorded of a challenge. -/
theorem TrustStep.reserved_prefix {host : AuthorityHost} {w w' : TrustWorld}
    (h : TrustStep host w call w') : w.reserved <+: w'.reserved := by
  cases h with
  | quiet hshrinks => rw [hshrinks.reserved]
  | @issued _ _ w₁ _ record hissues =>
    obtain ⟨w₂, hshrinks, rfl⟩ := hissues.added
    refine ⟨[record], ?_⟩
    rw [← hshrinks.reserved]
    simp [TrustWorld.reserved, TrustWorld.addRecord, TrustWorld.record]
  | @closed identity w₁ hshrinks =>
    have hreserved : (w₁.record (.closed identity)).reserved = w.reserved := hshrinks.reserved
    rw [hreserved]
  | reset => exact List.prefix_refl _
  | @proved _ challenge _ w₁ publicKey payload hshrinks _ =>
    have hreserved : (w₁.record (.proved publicKey challenge payload)).reserved = w.reserved :=
      hshrinks.reserved
    rw [hreserved]
  | @admitted place _ w₁ record a hshrinks hadmits =>
    have hreserved : (w₁.record (.admitted a)).reserved = w.reserved := hshrinks.reserved
    rw [((Shrinks.refl _).cleanup place a.connection.identity).reserved, hreserved]

/-! ## Runs -/

section Runs

variable {host : AuthorityHost} {allowed : TrustWorld → TrustCall → Bool}

/-- What every step of a call that knows its record preserves: the contract of all calls. -/
def admissionContract (host : AuthorityHost) (allowed : TrustWorld → TrustCall → Bool)
    (P : TrustWorld → Prop) : Contract (admissionMachine host allowed) where
  Inv w := P w.1
  Guar _ w w' := w.1.reserved <+: w'.1.reserved
  Pre _ _ _ := True
  Post _ _ _ _ := True

variable {P : TrustWorld → Prop}
  (hstep : ∀ {w call w'}, P w → allowed w call = true → Held host w call →
    TrustStep host w call w' → P w')

/-- What is held of a record, the other calls do not break. -/
theorem stable_held (i : ℕ) (call : TrustCall) :
    (admissionContract host allowed P).Stable i fun w => Held host w.1 call :=
  fun _ _ ⟨_, _, _, _, hguar⟩ hheld => hheld.of_reserved host hguar

include hstep in
/-- A piece of a call keeps the contract when what it relies on is held, and so does the rest of the
call if it does after every value that the piece can return. -/
theorem wp_piece_bind {i : ℕ} {f : TrustAnswer call → TrustTask} {w : TrustWorld × List TrustJob}
    (hheld : Held host w.1 call)
    (hf : ∀ answer w₁ choice w₂ jobs, call.exec host w₁ choice = some (.ok answer, w₂) →
      (admissionContract host allowed P).wp i (f answer) (fun _ _ => True) (w₂, jobs)) :
    (admissionContract host allowed P).wp i (Task.perform call >>= f) (fun _ _ => True) w := by
  refine Contract.wp_bind (Contract.wp_perform (stable_held i call) hheld ?_)
  intro w₁ choice r w₂ hheld₁ hinv hexec
  simp only [admissionMachine] at hexec
  split_ifs at hexec with hallowed
  obtain ⟨⟨r', w'⟩, hcall, heq⟩ := Option.map_eq_some_iff.mp hexec
  cases heq
  have htrust := exec_step hcall
  refine ⟨⟨hstep hinv hallowed hheld₁ htrust, htrust.reserved_prefix, ?_⟩, ?_⟩
  · exact Contract.starts_of_eq rfl
  · cases r' with
    | ok answer => exact hf answer _ _ _ _ hcall
    | error e => trivial

include hstep in
/-- `verifyResponse` finds, when it resumes, the record that it reserved. -/
theorem wp_verifyResponse (i : ℕ) (response : RuntimeTrustResponse)
    (connection : RuntimeConnectionContext) (w : TrustWorld × List TrustJob) :
    (admissionContract host allowed P).wp i (verifyResponse response connection)
      (fun _ _ => True) w := by
  refine wp_piece_bind hstep trivial fun waiting w₁ choice w₂ jobs hexec => ?_
  have hheld : Held host w₂ (.resumeVerifyResponse waiting.1 waiting.2 response connection) := by
    cases choice with
    | none =>
      have hensures := beginVerifyResponse_ensures host response connection w₁
      unfold Ensures at hensures
      obtain ⟨hanswer, rfl⟩ := Prod.mk.inj (Option.some.inj hexec)
      obtain ⟨place, hplace, rfl⟩ := except_map_eq_ok.mp hanswer
      rw [hplace] at hensures
      exact hensures.2
    | _ => cases hexec
  exact wp_piece_bind hstep hheld fun _ _ _ _ _ _ => trivial

include hstep in
/-- Every call keeps the contract. -/
theorem admissionContract_holds : (admissionContract host allowed P).Holds where
  body i job w _ _ := by
    cases job with
    | issueChallenge hello connection =>
      exact wp_piece_bind hstep trivial fun _ _ _ _ _ _ =>
        wp_piece_bind hstep trivial fun _ _ _ _ _ _ => trivial
    | verifyResponse response connection => exact wp_verifyResponse hstep i response connection w
    | requireCurrentSession connection =>
      exact wp_piece_bind hstep trivial fun _ _ _ _ _ _ =>
        wp_piece_bind hstep trivial fun _ _ _ _ _ _ => trivial
    | _ => exact wp_piece_bind hstep trivial fun _ _ _ _ _ _ => trivial
  post_stable _ _ _ _ _ _ _ := trivial
  start _ _ _ hinv := ⟨hinv, rfl, List.prefix_refl _, trivial⟩
  finish _ _ _ _ hinv _ _ := ⟨hinv, rfl, List.prefix_refl _, trivial⟩

include hstep in
/-- What holds at the start and is preserved by every step holds along every run. -/
theorem AdmissionRun.induct {labels : List (PoolLabel TrustJob TrustChoice)} {w : TrustWorld}
    (hrun : AdmissionRun host allowed labels w) (hinitial : P .initial) : P w := by
  obtain ⟨p, hp, rfl⟩ := Option.map_eq_some_iff.mp hrun
  have hempty : (admissionContract host allowed P).Kept ⟨(.initial, []), []⟩ :=
    Contract.kept_empty hinitial rfl
  exact ((admissionContract_holds hstep).run hempty labels hp).inv

end Runs

/-! ## The registry alone -/

/-- A call of the registry; `consume` takes the place of any record, also of one that is gone. -/
inductive RegistryCall
  | issue (snapshot : AdmissibleRuntimeTrustSnapshot) (runtimeInstanceId : JsString)
      (connection : RuntimeConnectionContext)
  | reserve (response : RuntimeTrustResponse) (connection : RuntimeConnectionContext)
  | consume (reserved : ℕ)
  | closeConnection (identity : ℕ)
  | clear
  | size

/-- The state after a call, whether it returns or throws. -/
def RegistryCall.next (host : AuthorityHost) (w : TrustWorld) : RegistryCall → TrustWorld
  | issue snapshot runtimeInstanceId connection =>
    ((RuntimeTrust.issue host snapshot runtimeInstanceId connection).exec w).2
  | reserve response connection => ((RuntimeTrust.reserve host response connection).exec w).2
  | consume reserved => w.consume reserved
  | closeConnection identity => w.closeChallenges identity
  | clear => w.clear
  | size => ((removeExpired host none).exec w).2

/-- Every call keeps the collections consistent. -/
theorem RegistryCall.consistent_next (host : AuthorityHost) {w : TrustWorld} (h : w.Consistent)
    (call : RegistryCall) : (call.next host w).Consistent := by
  cases call with
  | issue snapshot runtimeInstanceId connection =>
    have hissue := issue_ensures host snapshot runtimeInstanceId connection w
    refine hissue.mono (Q := fun _ w' => w'.Consistent) fun r w' hw' => ?_
    cases r with
    | error e => exact hw'.registry h
    | ok record => exact hw'.registry h
  | reserve response connection =>
    exact (Quiet.of_ends (reserve_ensures host response connection) w).registry h
  | consume reserved => exact (w.shrinks_consume reserved).registry h
  | closeConnection identity => exact (w.shrinks_closeChallenges identity).registry h
  | clear => exact ⟨[], describes_nil w.reserved⟩
  | size => exact (quiet_removeExpired host none w).registry h

/-- After every sequence of calls, in whatever order sweeps, closes and late callers consume, the
collections describe one list of at most 16 challenges, no two of them with the same issuer or
connection; and consuming a challenge takes that one away and leaves the entries of all others. -/
theorem registry_consistent (host : AuthorityHost) (calls : List RegistryCall) :
    let w := calls.foldl (RegistryCall.next host) .initial
    ∃ outstanding, w.Registers outstanding ∧ outstanding.length ≤ 16 ∧
      (outstanding.map (·.2.challenge.issuerId)).Nodup ∧
      (outstanding.map (·.2.connection.identity)).Nodup ∧
      ∀ place, (w.consume place).Registers (outstanding.filter fun e => decide (e.1 ≠ place)) := by
  intro w
  have hrun : w.Consistent := List.foldlRecOn (motive := TrustWorld.Consistent) calls _
    ⟨[], describes_nil []⟩ fun _ h call _ => call.consistent_next host h
  obtain ⟨outstanding, h⟩ := hrun
  have hissuers := w.issuerChallenges.nodup
  have hconnections := w.connectionChallenges.nodup
  rw [h.issuers, List.map_map] at hissuers
  rw [h.connections, List.map_map] at hconnections
  exact ⟨outstanding, h, h.bounded, hissuers, hconnections, h.consume⟩

end ZimaControl.RuntimeTrust
