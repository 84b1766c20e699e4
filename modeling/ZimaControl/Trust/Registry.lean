import ZimaControl.Trust.Admission

/-!
# The collections of the challenge registry

`RuntimeChallengeRegistry` keeps its outstanding challenges in four collections: the records by
identifier, and an entry for each by issuer, by connection and by nonce. `Describes` says that the
four describe the same list of challenges. A consumed record takes exactly its own entries along,
because no other has its issuer, its connection or its nonce; and a record that is added under free
keys is one more challenge.
-/

namespace ZimaControl.RuntimeTrust

open Wire List

/-- The four collections describe the same challenges, each with the place of its record among those
that were ever made: every challenge has one entry in each, and there is no other entry. -/
structure Describes (made : List ReservedRuntimeChallenge) (records : JsMap JsString ℕ)
    (issuerChallenges : JsMap JsString JsString) (connectionChallenges : JsMap ℕ JsString)
    (nonceValues : List JsString) (outstanding : List (ℕ × ReservedRuntimeChallenge)) : Prop where
  /-- Each stands at its place. -/
  made : ∀ e ∈ outstanding, made[e.1]? = some e.2
  /-- The places by identifier. -/
  records : records.entries = outstanding.map fun e => (e.2.challenge.challengeId, e.1)
  /-- The identifiers by issuer. -/
  issuers : issuerChallenges.entries =
    outstanding.map fun e => (e.2.challenge.issuerId, e.2.challenge.challengeId)
  /-- The identifiers by connection. -/
  connections : connectionChallenges.entries =
    outstanding.map fun e => (e.2.connection.identity, e.2.challenge.challengeId)
  /-- The nonces. -/
  nonces : nonceValues = outstanding.map fun e => hex e.2.challenge.nonce
  /-- No nonce is there twice. -/
  distinct : nonceValues.Nodup
  /-- The limit of the registry. -/
  bounded : outstanding.length ≤ 16

namespace TrustWorld

/-- The parts of the records that never change, in the order in which they were made. -/
def reserved (w : TrustWorld) : List ReservedRuntimeChallenge :=
  w.heap.map (·.toReservedRuntimeChallenge)

variable {w : TrustWorld} {outstanding : List (ℕ × ReservedRuntimeChallenge)} {place : ℕ}
  {record : ReservedRuntimeChallenge} {κ ν : Type} [DecidableEq κ]
  (key : ReservedRuntimeChallenge → κ)

/-- The challenges that the collections of the registry describe. -/
def Registers (w : TrustWorld) (outstanding : List (ℕ × ReservedRuntimeChallenge)) : Prop :=
  Describes w.reserved w.records w.issuerChallenges w.connectionChallenges w.nonceValues outstanding

/-- The four collections describe the same challenges. -/
def Consistent (w : TrustWorld) : Prop := ∃ outstanding, w.Registers outstanding

theorem reserved_addRecord (w : TrustWorld) (record : ReservedRuntimeChallenge) :
    (w.addRecord record).reserved = w.reserved ++ [record] := by
  simp [reserved, addRecord]

variable (h : w.Registers outstanding)
include h

/-- Where no two challenges share a key, those with another key than a challenge are those with
another place. -/
theorem Registers.filter_key (hnodup : (outstanding.map fun e => key e.2).Nodup)
    (hmem : (place, record) ∈ outstanding) :
    outstanding.filter (fun e => decide (key e.2 ≠ key record)) =
      outstanding.filter (fun e => decide (e.1 ≠ place)) := by
  refine filter_congr fun e he => decide_eq_decide.mpr (not_congr ⟨fun hkey => ?_, fun hplace => ?_⟩)
  · exact congrArg Prod.fst (inj_on_of_nodup_map hnodup he hmem hkey)
  · -- one place holds one record
    have hrecord := h.made e he
    rw [hplace, h.made _ hmem] at hrecord
    exact congrArg key (Option.some.inj hrecord).symm

/-- A map by key loses the entry of one challenge. -/
theorem Registers.delete {index : JsMap κ ν} {value : ℕ × ReservedRuntimeChallenge → ν}
    (hindex : index.entries = outstanding.map fun e => (key e.2, value e))
    (hmem : (place, record) ∈ outstanding) : (index.delete (key record)).entries =
      (outstanding.filter fun e => decide (e.1 ≠ place)).map fun e => (key e.2, value e) := by
  have hnodup := index.nodup
  rw [hindex, map_map] at hnodup
  rw [← h.filter_key key hnodup hmem]
  exact (congrArg (filter _) hindex).trans filter_map

/-- `consume` takes away the challenge of one record, with its entries and no others. -/
theorem Registers.consume (place : ℕ) :
    (w.consume place).Registers (outstanding.filter fun e => decide (e.1 ≠ place)) := by
  have hkeep : (∀ e ∈ outstanding, e.1 ≠ place) →
      w.Registers (outstanding.filter fun e => decide (e.1 ≠ place)) := fun hne => by
    rw [filter_eq_self.mpr fun e he => decide_eq_true (hne e he)]
    exact h
  unfold TrustWorld.consume
  split
  case h_1 hnone =>
    refine hkeep fun e he hplace => ?_
    have hrecord := h.made e he
    rw [reserved, getElem?_map, hplace, hnone] at hrecord
    cases hrecord
  case h_2 record hrecord =>
    have hmade : w.reserved[place]? = some record.toReservedRuntimeChallenge := by
      rw [reserved, getElem?_map, hrecord]
      rfl
    split_ifs with hcurrent
    · -- the record was consumed before, or another has its identifier
      refine hkeep fun e he hplace => hcurrent ?_
      have hsame := h.made e he
      rw [hplace, hmade] at hsame
      rw [← JsMap.mem_entries_iff, h.records, Option.some.inj hsame, ← hplace]
      exact mem_map_of_mem he
    · rw [not_not, ← JsMap.mem_entries_iff, h.records] at hcurrent
      obtain ⟨e, hmem, he⟩ := mem_map.mp hcurrent
      obtain ⟨-, rfl⟩ := Prod.mk.inj he
      have hsame := h.made e hmem
      rw [hmade] at hsame
      have hmem' : (e.1, record.toReservedRuntimeChallenge) ∈ outstanding := by
        rw [Option.some.inj hsame]
        exact hmem
      constructor
      case made => exact fun e' he' => h.made e' (mem_of_mem_filter he')
      case records => exact h.delete (·.challenge.challengeId) h.records hmem'
      case issuers => exact h.delete (·.challenge.issuerId) h.issuers hmem'
      case connections => exact h.delete (·.connection.identity) h.connections hmem'
      case nonces =>
        rw [← h.filter_key (hex ·.challenge.nonce) (h.nonces ▸ h.distinct) hmem']
        exact (congrArg (filter _) h.nonces).trans filter_map
      case distinct => exact h.distinct.filter _
      case bounded => exact (length_filter_le _ _).trans h.bounded

/-- A record under free keys is one more challenge. -/
theorem Registers.addRecord (hissuer : record.initialSnapshot.issuerId = record.challenge.issuerId)
    (hsize : w.records.entries.length < 16)
    (hid : w.records.get record.challenge.challengeId = none)
    (hissuers : w.issuerChallenges.get record.challenge.issuerId = none)
    (hconnections : w.connectionChallenges.get record.connection.identity = none)
    (hnonce : hex record.challenge.nonce ∉ w.nonceValues) :
    (w.addRecord record).Registers (outstanding ++ [(w.heap.length, record)]) := by
  constructor
  case made =>
    intro e he
    rw [reserved_addRecord]
    rcases mem_append.mp he with he | he
    · have hmade := h.made e he
      rwa [getElem?_append_left (List.getElem?_eq_some_iff.mp hmade).1]
    · rw [mem_singleton.mp he]
      simp [reserved]
  case records =>
    rw [map_append, ← h.records]
    exact w.records.entries_set_of_absent hid
  case issuers =>
    rw [map_append, ← h.issuers]
    change (w.issuerChallenges.set record.initialSnapshot.issuerId _).entries = _
    rw [hissuer]
    exact w.issuerChallenges.entries_set_of_absent hissuers
  case connections =>
    rw [map_append, ← h.connections]
    exact w.connectionChallenges.entries_set_of_absent hconnections
  case nonces =>
    rw [map_append, ← h.nonces]
    simp [TrustWorld.addRecord, hnonce]
  case distinct =>
    have hdistinct : (w.nonceValues.concat (hex record.challenge.nonce)).Nodup :=
      h.distinct.concat hnonce
    simpa [TrustWorld.addRecord, hnonce] using hdistinct
  case bounded =>
    have hlength := congrArg length h.records
    simp at hlength ⊢
    omega

end TrustWorld

/-- Empty collections describe no challenge. -/
theorem describes_nil (made : List ReservedRuntimeChallenge) : Describes made ∅ ∅ ∅ [] [] :=
  ⟨nofun, rfl, rfl, rfl, rfl, nodup_nil, Nat.zero_le _⟩

end ZimaControl.RuntimeTrust
