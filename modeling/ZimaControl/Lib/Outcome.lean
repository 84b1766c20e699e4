import Mathlib.Data.List.Forall2
import Mathlib.Tactic.Common

/-!
# Calls that may throw

The outcome of a call on mutable state: what it returned or threw, and the state it left. A throw
does not undo the changes made before it.
-/

namespace ZimaControl

/-- What a call returned or threw, with the state it left behind. -/
abbrev Outcome (σ ε α : Type) := Except ε α × σ

namespace Outcome

variable {σ ε α β : Type}

/-- Continues a call that returned; a throw passes on with its state. -/
def andThen (x : Outcome σ ε α) (k : α → σ → Outcome σ ε β) : Outcome σ ε β :=
  match x with
  | (.ok a, s) => k a s
  | (.error e, s) => (.error e, s)

/-- Runs checks that change nothing, then the rest of the call. -/
def checking (s : σ) (checks : Except ε α) (k : α → Outcome σ ε β) : Outcome σ ε β :=
  match checks with
  | .ok a => k a
  | .error e => (.error e, s)

@[simp] theorem andThen_ok (a : α) (s : σ) (k : α → σ → Outcome σ ε β) :
    andThen (.ok a, s) k = k a s := rfl

@[simp] theorem andThen_error (e : ε) (s : σ) (k : α → σ → Outcome σ ε β) :
    andThen (.error e, s) k = (.error e, s) := rfl

@[simp] theorem checking_ok (s : σ) (a : α) (k : α → Outcome σ ε β) :
    checking s (.ok a) k = k a := rfl

@[simp] theorem checking_error (s : σ) (e : ε) (k : α → Outcome σ ε β) :
    checking s (.error e) k = (.error e, s) := rfl

/-- A checked call either threw and left the state, or passed its checks. -/
theorem checking_cases (s : σ) (checks : Except ε α) (k : α → Outcome σ ε β) :
    (∃ e, checking s checks k = (.error e, s)) ∨ ∃ a, checks = .ok a ∧ checking s checks k = k a := by
  cases checks with
  | error e => exact .inl ⟨e, rfl⟩
  | ok a => exact .inr ⟨a, rfl, rfl⟩

end Outcome

variable {ε α β : Type} {x : Except ε α}

/-- A sequence of checks that passed, passed each. -/
theorem except_bind_eq_ok {f : α → Except ε β} {b : β} :
    (x >>= f) = .ok b ↔ ∃ a, x = .ok a ∧ f a = .ok b := by
  cases x with
  | error e => simp [bind, Except.bind]
  | ok a => simp [bind, Except.bind]

/-- A result that was mapped was returned. -/
theorem except_map_eq_ok {f : α → β} {b : β} : x.map f = .ok b ↔ ∃ a, x = .ok a ∧ f a = b := by
  cases x <;> simp [Except.map]

/-- A guard that throws was passed when the whole succeeded. -/
theorem except_unless_eq_ok {ε β : Type} {p : Prop} [Decidable p] {e : ε}
    {f : Unit → Except ε β} {b : β} :
    (if p then (throw e : Except ε Unit) >>= f else f ()) = .ok b ↔ ¬p ∧ f () = .ok b := by
  by_cases hp : p
  · simp [hp, throw, throwThe, MonadExceptOf.throw, bind, Except.bind]
  · simp [hp]

variable {r : List β}

/-- A check that was made for each element passed for each. -/
theorem except_mapM_eq_ok {f : α → Except ε β} {l : List α} :
    l.mapM f = .ok r ↔ List.Forall₂ (fun a b => f a = .ok b) l r := by
  induction l generalizing r with
  | nil =>
    rw [List.mapM_nil]
    constructor
    · intro h
      cases h
      exact .nil
    · intro h
      cases h
      rfl
  | cons a l ih =>
    rw [List.mapM_cons, except_bind_eq_ok]
    constructor
    · intro h
      obtain ⟨b, hb, hrest⟩ := h
      obtain ⟨bs, hbs, hr⟩ := except_bind_eq_ok.mp hrest
      cases hr
      exact .cons hb (ih.mp hbs)
    · intro h
      cases h with
      | cons hb hrest => exact ⟨_, hb, except_bind_eq_ok.mpr ⟨_, ih.mpr hrest, rfl⟩⟩

/-- A check that passes for each element, and what is done with the results. -/
theorem exists_bind_mapM {ε α β γ : Type} {f : α → Except ε β} {l : List α}
    {g : List β → Except ε γ} {P : γ → Prop} (h : ∀ a ∈ l, ∃ b, f a = .ok b)
    (hg : ∀ r, l.mapM f = .ok r → ∃ c, P c ∧ g r = .ok c) :
    ∃ c, P c ∧ (l.mapM f >>= g) = .ok c := by
  have hall : ∃ r, List.Forall₂ (fun a b => f a = .ok b) l r := by
    clear hg
    induction l with
    | nil => exact ⟨[], .nil⟩
    | cons a l ih =>
      obtain ⟨b, hb⟩ := h a List.mem_cons_self
      obtain ⟨r, hr⟩ := ih fun a' ha' => h a' (List.mem_cons_of_mem _ ha')
      exact ⟨b :: r, .cons hb hr⟩
  obtain ⟨r, hr⟩ := hall
  have hmap := except_mapM_eq_ok.mpr hr
  obtain ⟨c, hc, hgr⟩ := hg r hmap
  exact ⟨c, hc, except_bind_eq_ok.mpr ⟨r, hmap, hgr⟩⟩

/-- Something is related to each element. -/
theorem exists_of_forall₂ {R : α → β → Prop} {l : List α} {r : List β} {a : α}
    (h : List.Forall₂ R l r) (ha : a ∈ l) : ∃ b ∈ r, R a b := by
  induction h with
  | nil => cases ha
  | cons hhead hrest ih =>
    obtain rfl | htail := List.mem_cons.mp ha
    · exact ⟨_, List.mem_cons_self, hhead⟩
    · obtain ⟨b, hb, hab⟩ := ih htail
      exact ⟨b, List.mem_cons_of_mem _ hb, hab⟩

/-- What a check made is made of one of the elements. -/
theorem exists_of_mem_mapM {f : α → Except ε β} {l : List α} {b : β} (h : l.mapM f = .ok r)
    (hb : b ∈ r) : ∃ a ∈ l, f a = .ok b :=
  exists_of_forall₂ (except_mapM_eq_ok.mp h).flip hb

/-- Something is made of each element. -/
theorem exists_of_mapM_mem {f : α → Except ε β} {l : List α} {a : α} (h : l.mapM f = .ok r)
    (ha : a ∈ l) : ∃ b ∈ r, f a = .ok b :=
  exists_of_forall₂ (except_mapM_eq_ok.mp h) ha

end ZimaControl
