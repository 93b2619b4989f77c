import Mathlib.Tactic.Common

/-!
# Programs that make calls

A program ends with a value, or makes a call to its environment and goes on with the answer. The
environment is free in its answers: what is said about a program is said over all of them.

`Only P` bounds the calls a program makes, `Makes P n` counts them, `Does` is both, and `Path`
records one complete run with its answers. `Exec` runs a program against an environment that has a
state of its own.
-/

namespace AxiomRT.Lib

/-- A program over the calls `κ`, where call `c` is answered by a value of `ans c`. -/
inductive Prog (κ : Type) (ans : κ → Type) (α : Type) where
  | ret (a : α)
  | call (c : κ) (next : ans c → Prog κ ans α)

namespace Prog

variable {κ : Type} {ans : κ → Type} {α β : Type}

/-- Run `p`, then `f` on its result. -/
def bind : Prog κ ans α → (α → Prog κ ans β) → Prog κ ans β
  | .ret a, f => f a
  | .call c next, f => .call c fun r => (next r).bind f

instance instMonad : Monad (Prog κ ans) where
  pure := .ret
  bind := .bind

@[simp] theorem call_bind (c : κ) (next : ans c → Prog κ ans α) (f : α → Prog κ ans β) :
    (Prog.call c next >>= f) = .call c fun r => next r >>= f := rfl

/-! ## The calls a program can make -/

/-- Whatever the answers, every call the program makes meets `P`. -/
def Only (P : κ → Prop) : Prog κ ans α → Prop
  | .ret _ => True
  | .call c next => P c ∧ ∀ r, Only P (next r)

theorem Only.ret {P : κ → Prop} (a : α) : Only P (.ret a : Prog κ ans α) := trivial

theorem Only.bind {P : κ → Prop} {p : Prog κ ans α} {f : α → Prog κ ans β} (hp : Only P p)
    (hf : ∀ a, Only P (f a)) : Only P (p >>= f) := by
  induction p with
  | ret a => exact hf a
  | call c next ih => exact ⟨hp.1, fun r => ih r (hp.2 r)⟩

theorem Only.ite {P : κ → Prop} {c : Prop} [Decidable c] {p q : Prog κ ans α} (hp : c → Only P p)
    (hq : ¬ c → Only P q) : Only P (if c then p else q) := by
  split_ifs with h
  · exact hp h
  · exact hq h

/-- Whatever the answers, the program makes exactly `n` calls that meet `P` before it ends. -/
def Makes (P : κ → Bool) : ℕ → Prog κ ans α → Prop
  | n, .ret _ => n = 0
  | n, .call c next => ∃ m, n = m + (P c).toNat ∧ ∀ r, Makes P m (next r)

theorem Makes.ret {P : κ → Bool} (a : α) : Makes P 0 (.ret a : Prog κ ans α) := rfl

/-- A call that is not counted. -/
theorem Makes.skip {P : κ → Bool} {n : ℕ} {c : κ} {next : ans c → Prog κ ans α} (hc : P c = false)
    (h : ∀ r, Makes P n (next r)) : Makes P n (.call c next) :=
  ⟨n, by rw [hc]; rfl, h⟩

/-- A call that is counted. -/
theorem Makes.count {P : κ → Bool} {n : ℕ} {c : κ} {next : ans c → Prog κ ans α} (hc : P c = true)
    (h : ∀ r, Makes P n (next r)) : Makes P (n + 1) (.call c next) :=
  ⟨n, by rw [hc]; rfl, h⟩

theorem Makes.bind {P : κ → Bool} {m n : ℕ} {p : Prog κ ans α} {f : α → Prog κ ans β}
    (hp : Makes P m p) (hf : ∀ a, Makes P n (f a)) : Makes P (m + n) (p >>= f) := by
  induction p generalizing m with
  | ret a =>
    obtain rfl : m = 0 := hp
    rw [Nat.zero_add]
    exact hf a
  | call c next ih =>
    obtain ⟨k, rfl, hk⟩ := hp
    exact ⟨k + n, by omega, fun r => ih r (hk r)⟩

/-- Whatever the answers, every call meets `P`, and exactly `n` of them are counted by `Q`. -/
structure Does (P : κ → Prop) (Q : κ → Bool) (n : ℕ) (p : Prog κ ans α) : Prop where
  only : Only P p
  makes : Makes Q n p

namespace Does

variable {P : κ → Prop} {Q : κ → Bool} {n : ℕ}

theorem ret (a : α) : Does P Q 0 (.ret a : Prog κ ans α) := ⟨.ret a, .ret a⟩

theorem skip {c : κ} {next : ans c → Prog κ ans α} (hP : P c) (hQ : Q c = false)
    (h : ∀ r, Does P Q n (next r)) : Does P Q n (.call c next) :=
  ⟨⟨hP, fun r => (h r).only⟩, .skip hQ fun r => (h r).makes⟩

theorem count {c : κ} {next : ans c → Prog κ ans α} (hP : P c) (hQ : Q c = true)
    (h : ∀ r, Does P Q n (next r)) : Does P Q (n + 1) (.call c next) :=
  ⟨⟨hP, fun r => (h r).only⟩, .count hQ fun r => (h r).makes⟩

/-- What is left after a call. -/
theorem next {c : κ} {next : ans c → Prog κ ans α} (h : Does P Q n (.call c next)) :
    ∃ k, n = k + (Q c).toNat ∧ ∀ r, Does P Q k (next r) := by
  obtain ⟨k, hk, hnext⟩ := h.makes
  exact ⟨k, hk, fun r => ⟨h.only.2 r, hnext r⟩⟩

theorem bind {m : ℕ} {p : Prog κ ans α} {f : α → Prog κ ans β} (hp : Does P Q m p)
    (hf : ∀ a, Does P Q n (f a)) : Does P Q (m + n) (p >>= f) :=
  ⟨hp.only.bind fun a => (hf a).only, hp.makes.bind fun a => (hf a).makes⟩

/-- A first part without counted calls. -/
theorem after {p : Prog κ ans α} {f : α → Prog κ ans β} (hp : Does P Q 0 p)
    (hf : ∀ a, Does P Q n (f a)) : Does P Q n (p >>= f) := by
  have h := hp.bind hf
  rwa [Nat.zero_add] at h

theorem ite {c : Prop} [Decidable c] {p q : Prog κ ans α} (hp : Does P Q n p)
    (hq : Does P Q n q) : Does P Q n (if c then p else q) := by
  split_ifs
  · exact hp
  · exact hq

end Does

/-! ## Complete runs -/

/-- The calls of a run with their answers. -/
abbrev Trace (κ : Type) (ans : κ → Type) : Type := List ((c : κ) × ans c)

/-- The program can make these calls, get these answers and end with this value. -/
inductive Path : Prog κ ans α → Trace κ ans → α → Prop where
  | ret (a : α) : Path (.ret a) [] a
  | call {c : κ} {next : ans c → Prog κ ans α} {tr : Trace κ ans} {a : α} (r : ans c)
      (h : Path (next r) tr a) : Path (.call c next) (⟨c, r⟩ :: tr) a

theorem path_ret {a b : α} {tr : Trace κ ans} :
    Path (.ret a : Prog κ ans α) tr b ↔ tr = [] ∧ b = a := by
  constructor
  · intro h
    cases h
    exact ⟨rfl, rfl⟩
  · rintro ⟨rfl, rfl⟩
    exact .ret _

theorem path_call {c : κ} {next : ans c → Prog κ ans α} {tr : Trace κ ans} {a : α} :
    Path (.call c next) tr a ↔ ∃ r tr', tr = ⟨c, r⟩ :: tr' ∧ Path (next r) tr' a := by
  constructor
  · intro h
    cases h with
    | call r h => exact ⟨r, _, rfl, h⟩
  · rintro ⟨r, tr', rfl, h⟩
    exact .call r h

theorem path_bind {p : Prog κ ans α} {f : α → Prog κ ans β} {tr : Trace κ ans} {b : β} :
    Path (p >>= f) tr b ↔ ∃ tr₁ tr₂ a, tr = tr₁ ++ tr₂ ∧ Path p tr₁ a ∧ Path (f a) tr₂ b := by
  induction p generalizing tr with
  | ret a =>
    constructor
    · intro h
      exact ⟨[], tr, a, rfl, .ret a, h⟩
    · rintro ⟨tr₁, tr₂, a', rfl, h₁, h₂⟩
      obtain ⟨rfl, rfl⟩ := path_ret.mp h₁
      exact h₂
  | call c next ih =>
    rw [call_bind, path_call]
    constructor
    · rintro ⟨r, tr', rfl, h⟩
      obtain ⟨tr₁, tr₂, a, rfl, h₁, h₂⟩ := (ih r).mp h
      exact ⟨_, tr₂, a, rfl, .call r h₁, h₂⟩
    · rintro ⟨tr₁, tr₂, a, rfl, h₁, h₂⟩
      obtain ⟨r, tr', rfl, hnext⟩ := path_call.mp h₁
      exact ⟨r, tr' ++ tr₂, rfl, (ih r).mpr ⟨tr', tr₂, a, rfl, hnext, h₂⟩⟩

/-- If every call can be answered, a program can be run to its end. -/
theorem exists_path (hans : ∀ c : κ, Nonempty (ans c)) (p : Prog κ ans α) :
    ∃ tr a, Path p tr a := by
  induction p with
  | ret a => exact ⟨[], a, .ret a⟩
  | call c next ih =>
    obtain ⟨r⟩ := hans c
    obtain ⟨tr, a, h⟩ := ih r
    exact ⟨⟨c, r⟩ :: tr, a, .call r h⟩

/-- What a program can only call is all that its runs show. -/
theorem Path.only {P : κ → Prop} {p : Prog κ ans α} {tr : Trace κ ans} {a : α} (h : Path p tr a)
    (hp : Only P p) : ∀ ev ∈ tr, P ev.1 := by
  induction h with
  | ret a => simp
  | call r h ih =>
    intro ev hev
    rcases List.mem_cons.mp hev with rfl | hev
    · exact hp.1
    · exact ih (hp.2 r) ev hev

/-! ## Runs against an environment -/

section Exec

variable {σ : Type} {step : σ → (c : κ) → ans c → σ → Prop}

/-- Run against an environment in state `s`, the program ends with a value and leaves the
environment in another state. Where the environment answers call `c` with `r`, `step` says how it
moves; a call it has no answer for is never returned from. -/
inductive Exec (step : σ → (c : κ) → ans c → σ → Prop) : Prog κ ans α → σ → α → σ → Prop where
  | ret (a : α) (s : σ) : Exec step (.ret a) s a s
  | call {c : κ} {next : ans c → Prog κ ans α} {s s' t : σ} {a : α} (r : ans c)
      (hstep : step s c r s') (h : Exec step (next r) s' a t) : Exec step (.call c next) s a t

theorem exec_ret {a b : α} {s t : σ} :
    Exec step (.ret a : Prog κ ans α) s b t ↔ b = a ∧ t = s := by
  constructor
  · intro h
    cases h
    exact ⟨rfl, rfl⟩
  · rintro ⟨rfl, rfl⟩
    exact .ret _ _

theorem exec_call {c : κ} {next : ans c → Prog κ ans α} {s t : σ} {a : α} :
    Exec step (.call c next) s a t ↔ ∃ r s', step s c r s' ∧ Exec step (next r) s' a t := by
  constructor
  · intro h
    cases h with
    | call r hstep h => exact ⟨r, _, hstep, h⟩
  · rintro ⟨r, s', hstep, h⟩
    exact .call r hstep h

theorem exec_bind {p : Prog κ ans α} {f : α → Prog κ ans β} {s t : σ} {b : β} :
    Exec step (p >>= f) s b t ↔ ∃ a s', Exec step p s a s' ∧ Exec step (f a) s' b t := by
  induction p generalizing s with
  | ret a =>
    constructor
    · intro h
      exact ⟨a, s, .ret a s, h⟩
    · rintro ⟨a', s', h₁, h₂⟩
      obtain ⟨rfl, rfl⟩ := exec_ret.mp h₁
      exact h₂
  | call c next ih =>
    rw [call_bind, exec_call]
    constructor
    · rintro ⟨r, s', hstep, h⟩
      obtain ⟨a, s'', h₁, h₂⟩ := (ih r).mp h
      exact ⟨a, s'', .call r hstep h₁, h₂⟩
    · rintro ⟨a, s'', h₁, h₂⟩
      obtain ⟨r, s', hstep, hnext⟩ := exec_call.mp h₁
      exact ⟨r, s', hstep, (ih r).mpr ⟨a, s'', hnext, h₂⟩⟩

end Exec

end Prog

end AxiomRT.Lib
