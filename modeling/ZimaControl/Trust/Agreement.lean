import ZimaControl.Lib.History
import ZimaControl.Trust.Codec
import ZimaControl.Trust.Steps

/-!
# Admission agrees with the issuer

Whenever `verifyResponse` admits a connection, the two parties agree on what was admitted, and no
challenge is used twice, however the calls interleave (`admission_agrees`). Single use and freshness
are the work of two invariants. `Registered` says where every record that the registry still holds
comes from: an `issueChallenge` that returned its challenge, with no restart since, on a connection
that was not closed since unless the registry knows it. `SingleUse` says that a challenge that
admitted is gone from the registry and cannot come back, because a new challenge has an identifier
that was never drawn before. The proof of the challenge comes from unforgeability and the
injectivity of the signed encoding.
-/

namespace ZimaControl.RuntimeTrust

open Wire List Option

/-! ## Where records come from -/

/-- The challenge of a record was issued, with no restart since; if its connection was closed since,
the registry knows. -/
def IssuedSince (log : List TrustEvent) (closedConnections : List ℕ)
    (record : ReservedRuntimeChallenge) : Prop :=
  ∃ hello earlier later,
    log = earlier ++ .issued hello record.connection record.challenge record.initialSnapshot
      (record.deadlineNs - challengeLifetimeNs) :: later ∧
    hello.runtimeInstanceId = record.challenge.runtimeInstanceId ∧ .reset ∉ later ∧
    (.closed record.connection.identity ∈ later →
      record.connection.identity ∈ closedConnections)

variable {event : TrustEvent}

/-- One more event that is not a restart, and not a close that the registry missed. -/
theorem IssuedSince.append {log : List TrustEvent} {closedConnections : List ℕ}
    {record : ReservedRuntimeChallenge} (h : IssuedSince log closedConnections record)
    (hreset : event ≠ .reset) (hclosed : ∀ c, event = .closed c → c ∈ closedConnections) :
    IssuedSince (log ++ [event]) closedConnections record := by
  obtain ⟨hello, earlier, later, hlog, hruntime, hnoReset, hnoClose⟩ := h
  refine ⟨hello, earlier, later ++ [event], ?_, hruntime, fun hmem => ?_, fun hmem => ?_⟩
  · rw [hlog, append_assoc, cons_append]
  · rcases mem_append.mp hmem with hmem | hmem
    · exact hnoReset hmem
    · exact hreset (mem_singleton.mp hmem).symm
  · rcases mem_append.mp hmem with hmem | hmem
    · exact hnoClose hmem
    · exact hclosed _ (mem_singleton.mp hmem).symm

/-- What the registry and the history know of each other. -/
structure Registered (w : TrustWorld) : Prop where
  /-- The payload of a record is the encoding of its challenge. -/
  encoded : ∀ record ∈ w.reserved,
    encodeRuntimeTrustChallenge record.challenge = .ok record.canonicalPayload
  /-- A record that the registry holds was issued. -/
  live : ∀ id place, w.records.get id = some place → ∃ record, w.reserved[place]? = some record ∧
    record.challenge.challengeId = id ∧ IssuedSince w.log w.closedConnections record
  /-- A proof is over the encoding of its challenge. -/
  proofs : ∀ publicKey challenge payload, .proved publicKey challenge payload ∈ w.log →
    encodeRuntimeTrustChallenge challenge = .ok payload

/-- Nothing is registered at the start. -/
theorem registered_initial : Registered .initial where
  encoded _ h := absurd h not_mem_nil
  live id place h := by simp [TrustWorld.initial] at h
  proofs _ _ _ h := absurd h not_mem_nil

namespace Registered

variable {host : AuthorityHost} {w w' : TrustWorld}

variable (h : Registered w)
include h

/-- Code that takes away at most keeps it. -/
theorem shrinks (hw : Shrinks w w') : Registered w' where
  encoded record hrecord := h.encoded record (by rw [← hw.reserved]; exact hrecord)
  live id place hget := by
    rw [hw.reserved, hw.log, hw.closed]
    exact h.live id place (hw.records id place hget)
  proofs publicKey challenge payload hproved :=
    h.proofs publicKey challenge payload (by rw [← hw.log]; exact hproved)

/-- The proofs of a history with one more event. -/
theorem proofs_append (hproved : ∀ publicKey challenge payload,
    event = .proved publicKey challenge payload → encodeRuntimeTrustChallenge challenge = .ok payload)
    (publicKey : JsString) (challenge : RuntimeTrustChallenge) (payload : List Byte)
    (hmem : .proved publicKey challenge payload ∈ w.log ++ [event]) :
    encodeRuntimeTrustChallenge challenge = .ok payload := by
  rcases mem_append.mp hmem with hmem | hmem
  · exact h.proofs publicKey challenge payload hmem
  · exact hproved publicKey challenge payload (mem_singleton.mp hmem).symm

/-- One more event, as long as the registry does not have to know of it. -/
theorem record (hreset : event ≠ .reset)
    (hclosed : ∀ c, event = .closed c → c ∈ w.closedConnections)
    (hproved : ∀ publicKey challenge payload, event = .proved publicKey challenge payload →
      encodeRuntimeTrustChallenge challenge = .ok payload) : Registered (w.record event) where
  encoded := h.encoded
  live id place hget := by
    obtain ⟨record, hrecord, hid, hissued⟩ := h.live id place hget
    exact ⟨record, hrecord, hid, hissued.append hreset hclosed⟩
  proofs := h.proofs_append hproved

/-- A connection is marked as closed. -/
theorem close (identity : ℕ) :
    Registered { w with closedConnections := identity :: w.closedConnections } where
  encoded := h.encoded
  live id place hget := by
    obtain ⟨record, hrecord, hid, hello, earlier, later, hlog, hruntime, hreset, hclosed⟩ :=
      h.live id place hget
    exact ⟨record, hrecord, hid, hello, earlier, later, hlog, hruntime, hreset,
      fun hmem => mem_cons_of_mem identity (hclosed hmem)⟩
  proofs := h.proofs

/-- A restart leaves the registry empty. -/
theorem reset : Registered (w.clear.record .reset) where
  encoded := h.encoded
  live id place hget := by simp [TrustWorld.record, TrustWorld.clear] at hget
  proofs := h.proofs_append (by simp)

/-- A new record, together with the event of its issue. -/
theorem issue {hello : RuntimeTrustHello} {record : ReservedRuntimeChallenge}
    (hencoded : encodeRuntimeTrustChallenge record.challenge = .ok record.canonicalPayload)
    (hruntime : record.challenge.runtimeInstanceId = hello.runtimeInstanceId) :
    Registered ((w.addRecord record).record (.issued hello record.connection record.challenge
      record.initialSnapshot (record.deadlineNs - challengeLifetimeNs))) where
  encoded other hother := by
    change other ∈ (w.addRecord record).reserved at hother
    rw [TrustWorld.reserved_addRecord, mem_append, mem_singleton] at hother
    rcases hother with hother | rfl
    · exact h.encoded other hother
    · exact hencoded
  live id place hget := by
    change (w.records.set record.challenge.challengeId w.heap.length).get id = some place at hget
    change ∃ r, (w.addRecord record).reserved[place]? = some r ∧ _
    rw [JsMap.get_set] at hget
    rw [TrustWorld.reserved_addRecord]
    split_ifs at hget with hid
    · -- the new record stands at the end of the heap, and its issue at the end of the history
      have hplace : place = w.reserved.length := by
        rw [← some.inj hget, TrustWorld.reserved, length_map]
      refine ⟨record, by rw [hplace]; simp, hid, hello, w.log, [], rfl, hruntime.symm, ?_, ?_⟩
      · exact not_mem_nil
      · exact fun hmem => absurd hmem not_mem_nil
    · obtain ⟨other, hother, hotherId, hissued⟩ := h.live id place hget
      obtain ⟨hlt, -⟩ := List.getElem?_eq_some_iff.mp hother
      refine ⟨other, ?_, hotherId, hissued.append (by simp) fun c hc => by cases hc⟩
      rw [getElem?_append_left hlt]
      exact hother
  proofs := h.proofs_append (by simp)

/-- Every step keeps it. -/
theorem step {call : TrustCall} (hstep : TrustStep host w call w') : Registered w' := by
  cases hstep with
  | quiet hshrinks => exact h.shrinks hshrinks
  | issued hissues =>
    obtain ⟨w₂, hshrinks, rfl⟩ := hissues.added
    rw [← hissues.snapshot, ← hissues.connection]
    exact (h.shrinks hshrinks).issue hissues.encoded hissues.runtimeInstanceId
  | closed hshrinks =>
    refine ((h.close _).shrinks hshrinks).record (by simp) (fun c hc => ?_) fun _ _ _ hc => by
      cases hc
    cases hc
    rw [hshrinks.closed]
    exact mem_cons_self
  | reset => exact h.reset
  | proved hshrinks hpayload =>
    refine (h.shrinks hshrinks).record (by simp) (fun c hc => by cases hc) fun _ _ _ hc => ?_
    cases hc
    exact hpayload
  | @admitted place _ w₁ record a hshrinks hadmits =>
    have hrecorded : Registered (w₁.record (.admitted a)) := (h.shrinks hshrinks).record (by simp)
      (fun c hc => by cases hc) fun _ _ _ hc => by cases hc
    exact hrecorded.shrinks ((Shrinks.refl _).cleanup place _)

end Registered

/-! ## Single use -/

variable {w : TrustWorld} {place : ℕ}

/-- A record that `isReserved` finds is registered under its identifier, and its connection is not
known to be closed. -/
theorem registered_of_isReserved {record : ChallengeRecord} (hheap : w.heap[place]? = some record)
    (h : isReserved w place = true) :
    w.records.get record.challenge.challengeId = some place ∧
      record.connection.identity ∉ w.closedConnections := by
  unfold isReserved at h
  rw [hheap] at h
  simp only [Bool.and_eq_true, Bool.not_eq_true', contains_eq_mem,
    decide_eq_false_iff_not] at h
  exact ⟨eq_of_beq h.1.1, h.2⟩

/-- Every identifier was drawn, and those of admitted challenges are gone from the registry. -/
structure SingleUse (host : AuthorityHost) (w : TrustWorld) : Prop where
  /-- The identifier of each record was drawn. -/
  drawn : ∀ record ∈ w.reserved, ∃ k < w.draws,
    record.challenge.challengeId = identifierOf "ch1" (host.bytes k)
  /-- The challenge of an admission is gone from the registry, and its identifier was drawn. -/
  spent : ∀ a, .admitted a ∈ w.log → w.records.get a.challenge.challengeId = none ∧
    ∃ k < w.draws, a.challenge.challengeId = identifierOf "ch1" (host.bytes k)

/-- Nothing was used at the start. -/
theorem singleUse_initial (host : AuthorityHost) : SingleUse host .initial where
  drawn _ h := absurd h not_mem_nil
  spent _ h := absurd h not_mem_nil

/-- Different draws make different identifiers. -/
theorem identifierOf_injective (kind : String) : Function.Injective (identifierOf kind) :=
  fun _ _ h => hex_injective (append_cancel_left h)

namespace SingleUse

variable {host : AuthorityHost} {w w' : TrustWorld}

/-- What takes away at most brings no challenge back. -/
theorem shrinks (h : SingleUse host w) (hw : Shrinks w w') : SingleUse host w' where
  drawn record hrecord := by
    obtain ⟨k, hk, hid⟩ := h.drawn record (by rw [← hw.reserved]; exact hrecord)
    exact ⟨k, hk.trans_le hw.draws, hid⟩
  spent a ha := by
    obtain ⟨hgone, k, hk, hid⟩ := h.spent a (by rw [← hw.log]; exact ha)
    refine ⟨?_, k, hk.trans_le hw.draws, hid⟩
    rw [eq_none_iff_forall_ne_some] at hgone ⊢
    exact fun place hget => hgone place (hw.records _ place hget)

/-- One more event; an admission only of a challenge that is gone. -/
theorem record (h : SingleUse host w)
    (hevent : ∀ a, event = .admitted a → w.records.get a.challenge.challengeId = none ∧
      ∃ k < w.draws, a.challenge.challengeId = identifierOf "ch1" (host.bytes k)) :
    SingleUse host (w.record event) where
  drawn := h.drawn
  spent a ha := by
    rcases mem_append.mp ha with ha | ha
    · exact h.spent a ha
    · exact hevent a (mem_singleton.mp ha).symm

/-- A new record has an identifier that no admission has used, if draws do not repeat. -/
theorem addRecord (h : SingleUse host w) (hrandom : Function.Injective host.bytes)
    (hw : Shrinks w w') {record : ReservedRuntimeChallenge} {k : ℕ} (hnew : w.draws ≤ k)
    (hdrawn : k < w'.draws) (hid : record.challenge.challengeId = identifierOf "ch1" (host.bytes k)) :
    SingleUse host (w'.addRecord record) where
  drawn other hother := by
    rw [TrustWorld.reserved_addRecord, mem_append, mem_singleton] at hother
    rcases hother with hother | rfl
    · exact (h.shrinks hw).drawn other hother
    · exact ⟨k, hdrawn, hid⟩
  spent a ha := by
    obtain ⟨hgone, -⟩ := (h.shrinks hw).spent a ha
    obtain ⟨-, k', hk', hid'⟩ := h.spent a (by rw [← hw.log]; exact ha)
    have hne : record.challenge.challengeId ≠ a.challenge.challengeId := by
      intro heq
      rw [hid, hid'] at heq
      have hkk : k = k' := hrandom (identifierOf_injective "ch1" heq)
      omega
    refine ⟨?_, k', hk'.trans_le hw.draws, hid'⟩
    change (w'.records.set record.challenge.challengeId w'.heap.length).get _ = none
    rw [JsMap.get_set_of_ne _ _ hne]
    exact hgone

/-- The record of an admission is gone after it. -/
theorem get_consume_of_admits {record : ChallengeRecord} {a : Admission} (hw : Shrinks w w')
    (hadmits : Admits host w place record a) :
    (w'.consume place).records.get a.challenge.challengeId = none := by
  -- the record still stands at its place
  have hheap : w'.reserved[place]? = some record.toReservedRuntimeChallenge := by
    rw [hw.reserved, TrustWorld.reserved, getElem?_map, hadmits.heap]
    rfl
  obtain ⟨record', hrecord', hsame⟩ : ∃ record', w'.heap[place]? = some record' ∧
      record'.toReservedRuntimeChallenge = record.toReservedRuntimeChallenge := by
    rw [TrustWorld.reserved, getElem?_map] at hheap
    exact map_eq_some_iff.mp hheap
  obtain ⟨hregistered, -⟩ := registered_of_isReserved hadmits.heap hadmits.reserved
  unfold TrustWorld.consume
  rw [hrecord', hadmits.challenge]
  dsimp only
  rw [hsame]
  split_ifs with hget
  · -- whatever else stands there now stood there before
    rw [eq_none_iff_forall_ne_some]
    intro place' hplace'
    have hbefore := hw.records _ place' hplace'
    rw [hregistered] at hbefore
    exact hget (hplace'.trans hbefore.symm)
  · exact JsMap.get_delete_self _ _

/-- `consume` does not read the history. -/
theorem consume_record (w : TrustWorld) (event : TrustEvent) (place : ℕ) :
    (w.record event).consume place = (w.consume place).record event := by
  unfold TrustWorld.consume TrustWorld.record
  dsimp only
  split
  · rfl
  · split_ifs <;> rfl

/-- Every step keeps it, if no two readings of the random source are the same. -/
theorem step {call : TrustCall} (h : SingleUse host w) (hrandom : Function.Injective host.bytes)
    (hstep : TrustStep host w call w') : SingleUse host w' := by
  cases hstep with
  | quiet hshrinks => exact h.shrinks hshrinks
  | issued hissues =>
    obtain ⟨w₂, hshrinks, rfl⟩ := hissues.added
    obtain ⟨k, hnew, hdrawn, hid⟩ := hissues.drawn
    exact (h.addRecord hrandom hshrinks hnew hdrawn hid).record fun a ha => by cases ha
  | @closed identity w₁ hshrinks =>
    have hclosed : SingleUse host { w with closedConnections := identity :: w.closedConnections } :=
      ⟨h.drawn, h.spent⟩
    exact (hclosed.shrinks hshrinks).record fun a ha => by cases ha
  | reset =>
    have hcleared : SingleUse host w.clear :=
      ⟨h.drawn, fun a ha => ⟨JsMap.get_empty _, (h.spent a ha).2⟩⟩
    exact hcleared.record fun a ha => by cases ha
  | proved hshrinks hpayload => exact (h.shrinks hshrinks).record fun a ha => by cases ha
  | @admitted place _ w₁ record a hshrinks hadmits =>
    rw [consume_record]
    have hconsume := hshrinks.trans (w₁.shrinks_consume place)
    refine SingleUse.shrinks ((h.shrinks hconsume).record fun a' ha' => ?_)
      (TrustWorld.shrinks_elsewhere _)
    cases ha'
    have hmem : record.toReservedRuntimeChallenge ∈ w.reserved :=
      mem_map_of_mem (mem_of_getElem? hadmits.heap)
    obtain ⟨k, hk, hid⟩ := h.drawn _ hmem
    refine ⟨get_consume_of_admits hshrinks hadmits, k, hk.trans_le hconsume.draws, ?_⟩
    rw [hadmits.challenge]
    exact hid

end SingleUse

/-! ## Agreement -/

/-- What the history shows before an admission. -/
structure Agrees (host : AuthorityHost) (before : List TrustEvent) (a : Admission) : Prop where
  /-- The challenge was issued on this connection to this runtime instance, and there was no restart
  and no close of the connection since. -/
  issued : ∃ hello connection atNs earlier later,
    before = earlier ++ .issued hello connection a.challenge a.initialSnapshot atNs :: later ∧
    connection.identity = a.connection.identity ∧
    hello.runtimeInstanceId = a.response.runtimeInstanceId ∧
    .reset ∉ later ∧ .closed a.connection.identity ∉ later
  /-- Challenge, response and session are of one runtime instance. -/
  runtimeInstanceId : a.challenge.runtimeInstanceId = a.response.runtimeInstanceId ∧
    a.session.runtimeInstanceId = a.response.runtimeInstanceId
  /-- The snapshot that the call read is admissible, and is the one at issue. -/
  admissible : assertAdmissibleRuntimeTrustSnapshot host a.currentSnapshot = .ok a.initialSnapshot
  /-- The holder of its key proved this challenge. -/
  proved : ∃ payload, .proved a.initialSnapshot.publicKey a.challenge payload ∈ before
  /-- No admission used the challenge before. -/
  unused : ∀ a', .admitted a' ∈ before → a'.challenge.challengeId ≠ a.challenge.challengeId

/-- Bytes that the holder of a key signed are those of a proof. -/
theorem proved_of_hasSigned {publicKey : JsString} {payload : List Byte}
    (h : w.hasSigned publicKey payload = true) :
    ∃ challenge, .proved publicKey challenge payload ∈ w.log := by
  obtain ⟨event, hmem, hevent⟩ := any_eq_true.mp h
  cases event with
  | proved publicKey' challenge payload' =>
    simp only [Bool.and_eq_true, beq_iff_eq] at hevent
    obtain ⟨rfl, rfl⟩ := hevent
    exact ⟨challenge, hmem⟩
  | _ => simp at hevent

variable {host : AuthorityHost} {a : Admission}

/-- What an admission has checked, and the invariants, make an agreement. -/
theorem agrees_of_admits {record : ChallengeRecord} (hregistered : Registered w)
    (hsingle : SingleUse host w) (hadmits : Admits host w place record a) {checkedAt : ℕ}
    (hheld : Held host w (.resumeVerifyResponse place checkedAt a.response a.connection)) :
    Agrees host w.log a := by
  obtain ⟨hget, hopen⟩ := registered_of_isReserved hadmits.heap hadmits.reserved
  have hplace : w.reserved[place]? = some record.toReservedRuntimeChallenge := by
    rw [TrustWorld.reserved, getElem?_map, hadmits.heap]
    rfl
  -- the record that the waiting call held is the one it finds
  obtain ⟨held, hheldPlace, hconnection, hruntime, -⟩ := hheld
  have hsame : held = record.toReservedRuntimeChallenge :=
    some.inj (hheldPlace.symm.trans hplace)
  rw [hsame] at hconnection hruntime
  obtain ⟨live, hlivePlace, -, hello, earlier, later, hlog, hhello, hreset, hclosed⟩ :=
    hregistered.live _ place hget
  have hlive : live = record.toReservedRuntimeChallenge :=
    some.inj (hlivePlace.symm.trans hplace)
  rw [hlive] at hlog hhello hclosed
  -- the holder signed the payload of the record, which only its challenge has
  obtain ⟨challenge, hproved⟩ := proved_of_hasSigned hadmits.signed
  have hencoded := hregistered.encoded _ (mem_of_getElem? hplace)
  have hchallenge : challenge = record.challenge :=
    encodeRuntimeTrustChallenge_inj (hregistered.proofs _ _ _ hproved) hencoded
  rw [hchallenge] at hproved
  constructor
  · rw [hadmits.challenge, hadmits.initialSnapshot, ← hconnection]
    exact ⟨hello, record.connection, _, earlier, later, hlog, rfl, hhello.trans hruntime, hreset,
      fun hmem => hopen (hclosed hmem)⟩
  · rw [hadmits.challenge]
    exact ⟨hruntime, hadmits.runtimeInstanceId⟩
  · rw [hadmits.initialSnapshot]
    exact hadmits.admissible
  · rw [hadmits.challenge, hadmits.initialSnapshot]
    exact ⟨_, hproved⟩
  · -- an earlier admission of the challenge would have taken the record away
    intro a' ha' heq
    have hgone := (hsingle.spent a' ha').1
    rw [heq, hadmits.challenge, hget] at hgone
    cases hgone

/-- The invariants, and that every admission so far agreed with what was before it. -/
structure Agreed (host : AuthorityHost) (w : TrustWorld) : Prop where
  /-- The registry and the history know of each other. -/
  registered : Registered w
  /-- Challenges are used once. -/
  singleUse : SingleUse host w
  /-- Each admission agrees with the history before it. -/
  agrees : EachAfter (fun before event => ∀ a, event = .admitted a → Agrees host before a) w.log

/-- Only an admission adds an admission to the history. -/
theorem TrustStep.eachAfter {w w' : TrustWorld} {call : TrustCall}
    (hstep : TrustStep host w call w') {P : List TrustEvent → Admission → Prop}
    (h : EachAfter (fun before event => ∀ a, event = .admitted a → P before a) w.log)
    (hadmitted : ∀ place checkedAt record a,
      call = .resumeVerifyResponse place checkedAt a.response a.connection →
        Admits host w place record a → P w.log a) :
    EachAfter (fun before event => ∀ a, event = .admitted a → P before a) w'.log := by
  have hother : ∀ {w₁ : TrustWorld} {event}, w₁.log = w.log → (∀ a, event ≠ .admitted a) →
      EachAfter (fun before event => ∀ a, event = .admitted a → P before a)
        (w₁.record event).log := by
    intro w₁ event hlog hevent
    rw [TrustWorld.record, hlog]
    exact h.append fun a ha => absurd ha (hevent a)
  cases hstep with
  | quiet hshrinks =>
    rw [hshrinks.log]
    exact h
  | issued hissues =>
    obtain ⟨w₂, hshrinks, rfl⟩ := hissues.added
    exact hother hshrinks.log (by simp)
  | closed hshrinks => exact hother hshrinks.log (by simp)
  | reset => exact hother rfl (by simp)
  | proved hshrinks hpayload => exact hother hshrinks.log (by simp)
  | @admitted place checkedAt w₁ record a hshrinks hadmits =>
    rw [((Shrinks.refl _).cleanup place a.connection.identity).log, TrustWorld.record, hshrinks.log]
    refine h.append fun a' ha' => ?_
    cases ha'
    exact hadmitted place checkedAt record a rfl hadmits

/-- Every step keeps the invariants, and adds an admission only if it agrees. -/
theorem Agreed.step {w w' : TrustWorld} {call : TrustCall} (h : Agreed host w)
    (hrandom : Function.Injective host.bytes) (hheld : Held host w call)
    (hstep : TrustStep host w call w') : Agreed host w' := by
  refine ⟨h.registered.step hstep, h.singleUse.step hrandom hstep, ?_⟩
  refine hstep.eachAfter h.agrees fun place checkedAt record a hcall hadmits => ?_
  subst hcall
  exact agrees_of_admits h.registered h.singleUse hadmits hheld

/-! ## A handshake -/

/-- Random values of 32 bytes that do not repeat, as far as they are drawn here. -/
def exampleBytes (n : ℕ) : List Byte :=
  if n < 256 then List.replicate 31 0 ++ [UInt8.ofNat n] else List.replicate n 0

theorem exampleBytes_injective : Function.Injective exampleBytes := by
  intro n m h
  have hlength := congrArg List.length h
  unfold exampleBytes at h hlength
  split_ifs at h hlength with hn hm hm
  · have hbyte := congrArg UInt8.toNat (singleton_inj.mp (append_cancel_left h))
    rw [UInt8.toNat_ofNat', UInt8.toNat_ofNat'] at hbyte
    omega
  · simp at hlength
    omega
  · simp at hlength
    omega
  · simpa using hlength

/-- An Ed25519 public key in canonical form. -/
def exampleKey : JsString := js "MCowBQYDK2VwAyEA11qYAYKxCrfVS/7TyWQHOg7hcvPapiMlrwIaaPcHURo="

/-- The SHA-256 digest of the key. -/
def exampleFingerprint : JsString :=
  js "06e3fd8fda29bb60ab59557de61edb0aecdb231134be30e75b455f8e1b792fa9"

/-- A host that knows the one key, with any clock. -/
def exampleHost (nowNs : ℕ → ℤ) : AuthorityHost where
  canonicalEd25519PublicKey key :=
    if key = exampleKey then .ok (key, exampleFingerprint) else .error .invalidKey
  nowNs := nowNs
  bytes := exampleBytes

/-- The identifier of the authority and of the issuer. -/
def exampleUuid : JsString := js "00000000-0000-0000-0000-000000000000"

/-- An active trust state. -/
def exampleSnapshot : AdmissibleRuntimeTrustSnapshot :=
  ⟨exampleUuid, exampleUuid, js "boundary", js "epoch", 1, js "key", 1, exampleKey,
    exampleFingerprint⟩

/-- The runtime instance. -/
def exampleInstance : JsString := js "ri1-" ++ List.replicate 64 (unit '0')

/-- Its hello. -/
def exampleHello : RuntimeTrustHello :=
  ⟨exampleUuid, exampleUuid, js "boundary", js "epoch", exampleFingerprint, exampleInstance⟩

/-- The connection on the authority's side, accepted at time zero. -/
def exampleConnection : RuntimeConnectionContext := ⟨0, ⟨1, 21011, 21011⟩, 0, true⟩

/-- The connection on the issuer's side. -/
def exampleAuthority : AuthorityConnection := ⟨0, 0, true⟩

/-- The holder of the key. -/
def exampleProvider : BoundProvider :=
  ⟨exampleUuid, exampleUuid, js "boundary", js "epoch", exampleKey, exampleFingerprint,
    exampleInstance, exampleAuthority, [], false⟩

/-- The challenge that the first two draws make. -/
def exampleChallenge : RuntimeTrustChallenge :=
  challengeOf exampleSnapshot exampleInstance (identifierOf "ch1" (exampleBytes 0)) (exampleBytes 1)

/-- The response to it. -/
def exampleResponse : RuntimeTrustResponse :=
  ⟨exampleChallenge.challengeId, exampleInstance, List.replicate 64 0⟩

/-- One connection says hello, is challenged, proves the challenge and responds. -/
def handshake : List (PoolLabel TrustJob TrustChoice) :=
  [.start (.openProvider exampleProvider), .step 0 .none,
    .start (.issueChallenge exampleHello exampleConnection), .step 1 .none,
    .step 1 (.read (.ok (some exampleSnapshot.toSnapshot))),
    .start (.createChallengeProof 0 exampleChallenge exampleAuthority),
    .step 2 (.sign exampleResponse.signature),
    .start (.verifyResponse exampleResponse exampleConnection), .step 3 .none,
    .step 3 (.verify (.ok (some exampleSnapshot.toSnapshot)) true)]

/-- The admission of an event. -/
def TrustEvent.admission : TrustEvent → Option Admission
  | .admitted a => some a
  | _ => none

/-- The admission at the end of the handshake's history. -/
def handshakeAdmission (host : AuthorityHost) (allowed : TrustWorld → TrustCall → Bool) :
    Option Admission :=
  ((admissionMachine host allowed).run ⟨(.initial, []), []⟩ handshake).bind fun p =>
    p.world.1.log.getLast?.bind TrustEvent.admission

/-- A handshake whose history ends with an admission. -/
theorem exists_of_handshakeAdmission {allowed : TrustWorld → TrustCall → Bool}
    (h : handshakeAdmission host allowed = some a) :
    ∃ w before, AdmissionRun host allowed handshake w ∧ w.log = before ++ [.admitted a] := by
  obtain ⟨p, hp, hlast⟩ := bind_eq_some_iff.mp h
  obtain ⟨event, hevent, hadmission⟩ := bind_eq_some_iff.mp hlast
  have hadmitted : event = .admitted a := by
    cases event with
    | admitted a' => exact congrArg TrustEvent.admitted (some.inj hadmission)
    | _ => cases hadmission
  obtain ⟨before, hbefore⟩ := getLast?_eq_some_iff.mp hevent
  refine ⟨p.world.1, before, ?_, by rw [hbefore, hadmitted]⟩
  rw [AdmissionRun, hp]
  rfl

/-! ## The theorem -/

/-- Admission agrees with the issuer, injectively: along every interleaving of the calls, whatever
the clock and the snapshots are, every admission agrees with what was before it, and no other
admission uses its challenge. -/
theorem admission_agrees {host : AuthorityHost} (hrandom : Function.Injective host.bytes)
    {labels : List (PoolLabel TrustJob TrustChoice)} {w : TrustWorld}
    (hrun : AdmissionRun host anyTime labels w) {before after : List TrustEvent} {a : Admission}
    (hlog : w.log = before ++ .admitted a :: after) :
    Agrees host before a ∧
      ∀ a', .admitted a' ∈ before ++ after → a'.challenge.challengeId ≠ a.challenge.challengeId := by
  have hinitial : Agreed host .initial :=
    ⟨registered_initial, singleUse_initial host, eachAfter_nil⟩
  have hagreed : Agreed host w :=
    hrun.induct (fun h _ hheld hstep => h.step hrandom hheld hstep) hinitial
  have hagrees : Agrees host before a := hagreed.agrees before _ after hlog a rfl
  refine ⟨hagrees, fun a' ha' => ?_⟩
  rcases mem_append.mp ha' with hbefore | hafter
  · exact hagrees.unused a' hbefore
  -- a later admission agrees in its turn, and this one is before it
  obtain ⟨between, rest, rfl⟩ := append_of_mem hafter
  have hlater : Agrees host (before ++ .admitted a :: between) a' :=
    hagreed.agrees _ _ rest (by rw [hlog]; simp) a' rfl
  exact fun heq => hlater.unused a (by simp) heq.symm

/-- One handshake, with a clock that moves on at each reading. -/
theorem admission_agrees_handshake :
    ∃ w before a, AdmissionRun (exampleHost fun n => n) anyTime handshake w ∧
      w.log = before ++ [.admitted a] ∧ Agrees (exampleHost fun n => n) before a := by
  have hsome : (handshakeAdmission (exampleHost fun n => n) anyTime).isSome = true := by
    decide +kernel
  obtain ⟨a, ha⟩ := isSome_iff_exists.mp hsome
  obtain ⟨w, before, hrun, hlog⟩ := exists_of_handshakeAdmission ha
  exact ⟨w, before, a, hrun, hlog, (admission_agrees exampleBytes_injective hrun hlog).1⟩

end ZimaControl.RuntimeTrust
