import Mathlib.Logic.Function.Basic
import Mathlib.Tactic.Common

/-!
# Exclusive leases on keys

Members compete for keys. A key has at most one lock, held by a member under a fencing token; a
member belongs to one key and is *live*, *settled* (it ended and nothing of it is running) or
*stuck* (it ended and something of it may still be running).

A stuck member keeps its lock forever, as long as no move brings a stuck member back
(`Label.Unsticks`). A member keeps its lock until it has settled, as long as no grant takes the lock
of a live member away (`Label.TakesOver`).
-/

namespace ZimaControl.LeaseProtocol

open Function

variable {Id Key : Type}

/-- Where a member stands. -/
inductive Phase
  | live
  | settled
  | stuck
  deriving DecidableEq

/-- The members with key and phase, and the locks with their fencing tokens. -/
structure Table (Id Key : Type) where
  /-- The key and phase of a member, if it exists. -/
  entry : Id → Option (Key × Phase)
  /-- The owner and token of a key's lock, if it has one. -/
  lock : Key → Option (Id × ℕ)
  /-- A lock is owned by a member of its key. -/
  owner_entry : ∀ k a n, lock k = some (a, n) → ∃ p, entry a = some (k, p)

/-- What a move does. -/
inductive Label (Id Key : Type)
  /-- Nothing that the table shows. -/
  | stay
  /-- A new live member of a key. -/
  | create (a : Id) (k : Key)
  /-- The owner of a lock changes its phase and may drop the lock. -/
  | owned (a : Id) (k : Key) (p : Phase) (drop : Bool)
  /-- A member changes its phase without showing a lock. -/
  | unowned (a : Id) (k : Key) (p : Phase)
  /-- A member receives the lock of its key under a token. -/
  | grant (a : Id) (k : Key) (n : ℕ)
  /-- The lock of a settled owner goes. -/
  | release (k : Key)

/-- The move brings a stuck member into another phase. -/
def Label.Unsticks (t : Table Id Key) : Label Id Key → Prop
  | .owned a k p _ => t.entry a = some (k, .stuck) ∧ p ≠ .stuck
  | _ => False

/-- The move gives away the lock of a live member. -/
def Label.TakesOver (t : Table Id Key) : Label Id Key → Prop
  | .grant a k _ => ∃ b n, t.lock k = some (b, n) ∧ b ≠ a ∧ t.entry b = some (k, .live)
  | _ => False

/-- Every stuck member owns the lock of its key. -/
def Table.StuckOwns (t : Table Id Key) : Prop :=
  ∀ a k, t.entry a = some (k, .stuck) → ∃ n, t.lock k = some (a, n)

/-- A table in which nobody is stuck qualifies. -/
theorem Table.stuckOwns_of_no_entry (t : Table Id Key) (h : ∀ a, t.entry a = none) :
    t.StuckOwns := by
  intro a k hs
  rw [h a] at hs
  cases hs

variable {t t' : Table Id Key} {l : Label Id Key} {a : Id} {k : Key} {n : ℕ}

/-- Two stuck members of one key are the same. -/
theorem Table.StuckOwns.unique {b : Id} (h : t.StuckOwns) (ha : t.entry a = some (k, .stuck))
    (hb : t.entry b = some (k, .stuck)) : a = b := by
  obtain ⟨m, hm⟩ := h a k ha
  obtain ⟨m', hm'⟩ := h b k hb
  rw [hm] at hm'
  cases hm'
  rfl

variable [DecidableEq Id] [DecidableEq Key]

/-- The moves of the protocol. -/
inductive Move (t t' : Table Id Key) : Label Id Key → Prop
  | stay (entry : t'.entry = t.entry) (lock : t'.lock = t.lock) : Move t t' .stay
  | create {a : Id} {k : Key} (absent : t.entry a = none)
      (entry : t'.entry = Function.update t.entry a (some (k, .live))) (lock : t'.lock = t.lock) :
      Move t t' (.create a k)
  | owned {a : Id} {k : Key} {n : ℕ} {p : Phase} {drop : Bool} (owns : t.lock k = some (a, n))
      (ended : drop = true → p = .settled)
      (entry : t'.entry = Function.update t.entry a (some (k, p)))
      (lock : t'.lock = if drop then Function.update t.lock k none else t.lock) :
      Move t t' (.owned a k p drop)
  | unowned {a : Id} {k : Key} {p : Phase} (live : t.entry a = some (k, .live)) (known : p ≠ .stuck)
      (entry : t'.entry = Function.update t.entry a (some (k, p))) (lock : t'.lock = t.lock) :
      Move t t' (.unowned a k p)
  | grant {a : Id} {k : Key} {n : ℕ} (free : ∀ b m, t.lock k = some (b, m) →
        t.entry b ≠ some (k, .stuck))
      (entry : t'.entry = t.entry) (lock : t'.lock = Function.update t.lock k (some (a, n))) :
      Move t t' (.grant a k n)
  | release {k : Key} {a : Id} {n : ℕ} (owns : t.lock k = some (a, n))
      (settled : t.entry a = some (k, .settled))
      (entry : t'.entry = t.entry) (lock : t'.lock = Function.update t.lock k none) :
      Move t t' (.release k)

/-- A stuck member in another phase is a change. -/
theorem Move.ne_of_unsticks (hm : Move t t' l) (hl : l.Unsticks t) : t ≠ t' := by
  rintro rfl
  cases hm with
  | @owned a _ _ _ _ _ _ entry _ =>
    have hentry := congrFun entry a
    rw [update_self, hl.1] at hentry
    cases hentry
    exact hl.2 rfl
  | _ => exact hl

/-- A lock that is given away is a change. -/
theorem Move.ne_of_takesOver (hm : Move t t' l) (hl : l.TakesOver t) : t ≠ t' := by
  rintro rfl
  cases hm with
  | @grant _ k _ _ _ lock =>
    obtain ⟨b, m, hlock, hne, -⟩ := hl
    have hgranted := congrFun lock k
    rw [update_self, hlock] at hgranted
    cases hgranted
    exact hne rfl
  | _ => exact hl

section

variable (hmove : Move t t' l)
include hmove

/-- A stuck owner stays stuck and keeps its lock, token included. -/
theorem Move.stuck_kept (hl : ¬ l.Unsticks t) (hentry : t.entry a = some (k, .stuck))
    (howns : t.lock k = some (a, n)) : t'.entry a = some (k, .stuck) ∧ t'.lock k = some (a, n) := by
  cases hmove with
  | stay entry lock => exact ⟨by rw [entry, hentry], by rw [lock, howns]⟩
  | create absent entry lock =>
    refine ⟨?_, by rw [lock, howns]⟩
    rw [entry, update_of_ne (by rintro rfl; rw [absent] at hentry; cases hentry), hentry]
  | @owned b kb m p drop owns ended entry lock =>
    -- the owner itself may not move, and another owner has another key
    by_cases hb : a = b
    · subst hb
      obtain ⟨q, hq⟩ := t.owner_entry _ _ _ owns
      rw [hentry] at hq
      cases hq
      have hp : p = .stuck := by
        by_contra hp
        exact hl ⟨hentry, hp⟩
      have hdrop : drop = false := by
        by_contra hd
        rw [hp] at ended
        exact absurd (ended (by simpa using hd)) (by decide)
      exact ⟨by rw [entry, hp, update_self], by simp [lock, hdrop, howns]⟩
    · have hk : k ≠ kb := by
        rintro rfl
        rw [howns] at owns
        cases owns
        exact hb rfl
      refine ⟨by rw [entry, update_of_ne hb, hentry], ?_⟩
      cases drop <;> simp [lock, update_of_ne hk, howns]
  | unowned live known entry lock =>
    refine ⟨?_, by rw [lock, howns]⟩
    rw [entry, update_of_ne (by rintro rfl; rw [live] at hentry; cases hentry), hentry]
  | @grant b kb m free entry lock =>
    have hk : k ≠ kb := by
      rintro rfl
      exact free a n howns hentry
    exact ⟨by rw [entry, hentry], by rw [lock, update_of_ne hk, howns]⟩
  | @release kb b m owns settled entry lock =>
    have hk : k ≠ kb := by
      rintro rfl
      rw [howns] at owns
      cases owns
      rw [hentry] at settled
      cases settled
    exact ⟨by rw [entry, hentry], by rw [lock, update_of_ne hk, howns]⟩

/-- A member that is stuck after a move was so before, or became so as the owner of its lock. -/
theorem Move.stuck_before_or_owns (hentry : t'.entry a = some (k, .stuck)) :
    t.entry a = some (k, .stuck) ∨ ∃ n, t'.lock k = some (a, n) := by
  cases hmove with
  | stay entry lock => exact .inl (by rw [← entry, hentry])
  | @create b kb absent entry lock =>
    by_cases hb : a = b
    · subst hb
      rw [entry, update_self] at hentry
      cases hentry
    · exact .inl (by rw [entry, update_of_ne hb] at hentry; exact hentry)
  | @owned b kb m p drop owns ended entry lock =>
    by_cases hb : a = b
    · subst hb
      rw [entry, update_self] at hentry
      cases hentry
      have hdrop : drop = false := by
        by_contra hd
        exact absurd (ended (by simpa using hd)) (by decide)
      exact .inr ⟨m, by simp [lock, hdrop, owns]⟩
    · exact .inl (by rw [entry, update_of_ne hb] at hentry; exact hentry)
  | @unowned b kb p live known entry lock =>
    by_cases hb : a = b
    · subst hb
      rw [entry, update_self] at hentry
      cases hentry
      exact absurd rfl known
    · exact .inl (by rw [entry, update_of_ne hb] at hentry; exact hentry)
  | grant free entry lock => exact .inl (by rw [← entry, hentry])
  | release owns settled entry lock => exact .inl (by rw [← entry, hentry])

/-- Stuck members own their locks after every move that brings none back. -/
theorem Move.stuckOwns (hl : ¬ l.Unsticks t) (h : t.StuckOwns) : t'.StuckOwns := by
  intro a k hentry
  rcases hmove.stuck_before_or_owns hentry with hbefore | howns
  · obtain ⟨n, hn⟩ := h a k hbefore
    exact ⟨n, (hmove.stuck_kept hl hbefore hn).2⟩
  · exact howns

/-- An owner that has not settled owns its lock after the move, or settled by it. -/
theorem Move.owns_or_settled (hl : ¬ l.TakesOver t) (howns : t.lock k = some (a, n))
    (hopen : t.entry a ≠ some (k, .settled)) :
    (∃ m, t'.lock k = some (a, m)) ∨ t'.entry a = some (k, .settled) := by
  cases hmove with
  | stay entry lock => exact .inl ⟨n, by rw [lock, howns]⟩
  | create absent entry lock => exact .inl ⟨n, by rw [lock, howns]⟩
  | @owned b kb m p drop owns ended entry lock =>
    cases drop with
    | false => exact .inl ⟨n, by simp [lock, howns]⟩
    | true =>
      by_cases hk : k = kb
      · subst hk
        rw [howns] at owns
        cases owns
        exact .inr (by rw [entry, ended rfl, update_self])
      · exact .inl ⟨n, by simp [lock, update_of_ne hk, howns]⟩
  | unowned live known entry lock => exact .inl ⟨n, by rw [lock, howns]⟩
  | @grant b kb m free entry lock =>
    by_cases hk : k = kb
    · subst hk
      obtain ⟨p, hp⟩ := t.owner_entry k a n howns
      -- The owner is live: settled is excluded here, stuck by the rule for grants.
      have hlive : p = .live := by
        cases p with
        | live => rfl
        | settled => exact absurd hp hopen
        | stuck => exact absurd hp (free a n howns)
      have hb : a = b := by
        by_contra hb
        exact hl ⟨a, n, howns, hb, by rw [hp, hlive]⟩
      exact .inl ⟨m, by rw [lock, update_self, hb]⟩
    · exact .inl ⟨n, by rw [lock, update_of_ne hk, howns]⟩
  | @release kb b m owns settled entry lock =>
    have hk : k ≠ kb := by
      rintro rfl
      rw [howns] at owns
      cases owns
      exact hopen settled
    exact .inl ⟨n, by rw [lock, update_of_ne hk, howns]⟩

end

/-- Without takeovers, an owner keeps its lock until it has settled. -/
theorem owns_until_settled {t : ℕ → Table Id Key} {l : ℕ → Label Id Key}
    (hmove : ∀ i, Move (t i) (t (i + 1)) (l i)) (hl : ∀ i, ¬ (l i).TakesOver (t i))
    {i : ℕ} (howns : (t i).lock k = some (a, n)) (d : ℕ) :
    (∃ m, i ≤ m ∧ m ≤ i + d ∧ (t m).entry a = some (k, .settled)) ∨
      ∃ m, (t (i + d)).lock k = some (a, m) := by
  induction d with
  | zero => exact .inr ⟨n, howns⟩
  | succ d ih =>
    rcases ih with ⟨m, him, hmd, hm⟩ | ⟨m, hm⟩
    · exact .inl ⟨m, him, by omega, hm⟩
    by_cases hset : (t (i + d)).entry a = some (k, .settled)
    · exact .inl ⟨i + d, by omega, by omega, hset⟩
    · rcases (hmove (i + d)).owns_or_settled (hl (i + d)) hm hset with howns' | hset'
      · exact .inr howns'
      · exact .inl ⟨i + d + 1, by omega, by omega, hset'⟩

end ZimaControl.LeaseProtocol
