import Mathlib.Logic.Function.Basic
import Mathlib.Order.Basic
import Mathlib.Tactic.Common

/-!
# Executions of a machine that may stop

A machine is a step function `step : σ → ε → Except η σ`: on an event it either moves to a new state
or stops for a reason. An `Execution` is a finite run of such a machine, indexed by the number of
steps taken, so that properties of histories ("an earlier step did ...") are statements about
indexes.
-/

namespace AxiomRT.Lib

universe u

variable {σ ε η : Type*}

/-- A computation that ends normally has ended its first part normally. -/
theorem bind_eq_ok {α β : Type u} {x : Except η α} {f : α → Except η β} {r : β} :
    (x >>= f) = .ok r ↔ ∃ a, x = .ok a ∧ f a = .ok r := by
  cases x with
  | error e =>
    constructor
    · intro h
      cases h
    · rintro ⟨a, h, -⟩
      cases h
  | ok a =>
    constructor
    · intro h
      exact ⟨a, rfl, h⟩
    · rintro ⟨a', h, h'⟩
      cases h
      exact h'

theorem ok_bind {α β : Type u} (a : α) (f : α → Except η β) : (Except.ok a >>= f) = f a := rfl

theorem map_eq_ok {α β : Type*} {x : Except η α} {f : α → β} {r : β} :
    x.map f = .ok r ↔ ∃ a, x = .ok a ∧ f a = r := by
  cases x <;> simp [Except.map]

theorem mapError_eq_ok {α : Type*} {η' : Type*} {x : Except η α} {f : η → η'} {a : α} :
    x.mapError f = .ok a ↔ x = .ok a := by
  cases x <;> simp [Except.mapError]

/-- However the computation ends, it ends as it should: normally in `P`, or stopped in `Q`. -/
def Ends {α : Type u} (Q : η → Prop) (P : α → Prop) : Except η α → Prop
  | .ok a => P a
  | .error e => Q e

/-- Sequencing: what the first part ensures is what the second part may assume. -/
theorem Ends.bind {α β : Type u} {Q : η → Prop} {P : α → Prop} {R : β → Prop} {x : Except η α}
    {f : α → Except η β} (hx : Ends Q P x) (hf : ∀ a, P a → Ends Q R (f a)) :
    Ends Q R (x >>= f) := by
  cases x with
  | ok a => exact hf a hx
  | error e => exact hx

/-- A finite run of a machine from an initial state. -/
structure Execution (step : σ → ε → Except η σ) (init : σ → Prop) where
  /-- The number of steps. -/
  len : ℕ
  /-- The state before step `i`; `st len` is the last one. -/
  st : ℕ → σ
  /-- The event of step `i`. -/
  ev : ℕ → ε
  init_st : init (st 0)
  step_st : ∀ i < len, step (st i) (ev i) = .ok (st (i + 1))

namespace Execution

variable {step : σ → ε → Except η σ} {init : σ → Prop}

/-- `P` holds of every state the execution reaches. -/
def Always (x : Execution step init) (P : σ → Prop) : Prop := ∀ i, i ≤ x.len → P (x.st i)

/-- Every step of the execution is taken from a state and on an event that meet `C`. -/
def EveryStep (x : Execution step init) (C : σ → ε → Prop) : Prop :=
  ∀ i, i < x.len → C (x.st i) (x.ev i)

/-- The same execution, seen from a weaker initial condition. -/
def weaken {init' : σ → Prop} (x : Execution step init) (h : ∀ s, init s → init' s) :
    Execution step init' :=
  { x with init_st := h _ x.init_st }

/-- A property of indexes that holds initially and is carried along every step holds throughout. -/
theorem induct (x : Execution step init) {P : ℕ → Prop} (h0 : P 0)
    (hs : ∀ i, i < x.len → P i → P (i + 1)) : ∀ i, i ≤ x.len → P i := by
  intro i
  induction i with
  | zero => intro _; exact h0
  | succ i ih => intro hi; exact hs i (by omega) (ih (by omega))

/-- A state property that holds initially and is kept by every step taken under `C` holds along an
execution all of whose steps meet `C`. -/
theorem invariant_of (x : Execution step init) {P : σ → Prop} {C : σ → ε → Prop}
    (h0 : ∀ s, init s → P s) (hs : ∀ s e s', P s → C s e → step s e = .ok s' → P s')
    (hC : x.EveryStep C) : x.Always P :=
  x.induct (h0 _ x.init_st) fun i hi h => hs _ _ _ h (hC i hi) (x.step_st i hi)

/-- A state property that holds initially and is kept by every step holds along every execution. -/
theorem invariant (x : Execution step init) {P : σ → Prop} (h0 : ∀ s, init s → P s)
    (hs : ∀ s e s', P s → step s e = .ok s' → P s') : x.Always P :=
  x.invariant_of (C := fun _ _ => True) h0 (fun s e s' h _ => hs s e s' h) fun _ _ => trivial

/-! ## Executions from event lists -/

/-- Feed a list of events to the machine. -/
def feed (step : σ → ε → Except η σ) (s : σ) : List ε → Except η σ
  | [] => .ok s
  | e :: es => step s e >>= fun s' => feed step s' es

/-- The state reached after the first `i` events, as long as the machine has not stopped. -/
def stateAt (step : σ → ε → Except η σ) (s : σ) (es : List ε) (i : ℕ) : σ :=
  match feed step s (es.take i) with
  | .ok s' => s'
  | .error _ => s

theorem feed_append (s : σ) (es es' : List ε) :
    feed step s (es ++ es') = feed step s es >>= fun s' => feed step s' es' := by
  induction es generalizing s with
  | nil => rfl
  | cons e es ih =>
    simp only [List.cons_append, feed]
    cases step s e with
    | error r => rfl
    | ok s' => exact ih s'

/-- A machine that takes every event in every state with `P`, and keeps `P`, survives every list of
events. -/
theorem feed_total {P : σ → Prop} (hs : ∀ s e, P s → ∃ s', step s e = .ok s' ∧ P s') (es : List ε) :
    ∀ {s}, P s → ∃ t, feed step s es = .ok t ∧ P t := by
  induction es with
  | nil => exact fun {s} h => ⟨s, rfl, h⟩
  | cons e es ih =>
    intro s h
    obtain ⟨s', hs', h'⟩ := hs s e h
    obtain ⟨t, ht, hP⟩ := ih h'
    exact ⟨t, by rw [feed, hs', ok_bind]; exact ht, hP⟩

/-- A machine that survives a list of events survives each prefix of it. -/
theorem feed_take {s t : σ} {es : List ε} (h : feed step s es = .ok t) (i : ℕ) :
    feed step s (es.take i) = .ok (stateAt step s es i) := by
  rw [← List.take_append_drop i es, feed_append, bind_eq_ok] at h
  obtain ⟨s', hs', -⟩ := h
  simp only [stateAt, hs']

/-- The execution a list of events gives, if the machine survives it. -/
def ofEvents (step : σ → ε → Except η σ) (init : σ → Prop) (s : σ) (es : List ε) (dflt : ε)
    (hs : init s) (h : ∃ t, feed step s es = .ok t) : Execution step init where
  len := es.length
  st := stateAt step s es
  ev i := es.getD i dflt
  init_st := by
    have : stateAt step s es 0 = s := rfl
    rw [this]
    exact hs
  step_st := by
    intro i hi
    obtain ⟨t, ht⟩ := h
    have h1 := feed_take ht (i + 1)
    rw [List.take_succ_eq_append_getElem hi, feed_append, feed_take ht i] at h1
    have h2 : step (stateAt step s es i) es[i] >>= (fun s' => feed step s' []) =
        .ok (stateAt step s es (i + 1)) := h1
    rw [bind_eq_ok] at h2
    obtain ⟨s', hs', h3⟩ := h2
    cases h3
    simpa [List.getD_eq_getElem?_getD, List.getElem?_eq_getElem hi] using hs'

end Execution

/-! ## Components that answer calls -/

section Calls

variable {τ κ ρ : Type*}

/-- The state after a sequence of calls, and the answer to each of them. -/
def runCalls (step : σ → κ → σ × ρ) (s : σ) : List κ → σ × List ρ
  | [] => (s, [])
  | c :: cs =>
    let (s', r) := step s c
    let (t, rs) := runCalls step s' cs
    (t, r :: rs)

/-- If related states answer every call alike and stay related, every sequence of calls gets the
same answers and ends in related states. -/
theorem runCalls_refines {step : σ → κ → σ × ρ} {spec : τ → κ → τ × ρ} {R : σ → τ → Prop}
    (hstep : ∀ s t c, R s t → (step s c).2 = (spec t c).2 ∧ R (step s c).1 (spec t c).1)
    (cs : List κ) :
    ∀ {s t}, R s t → (runCalls step s cs).2 = (runCalls spec t cs).2 ∧
      R (runCalls step s cs).1 (runCalls spec t cs).1 := by
  induction cs with
  | nil => exact fun h => ⟨rfl, h⟩
  | cons c cs ih =>
    intro s t h
    obtain ⟨hreply, hrel⟩ := hstep s t c h
    obtain ⟨hreplies, hend⟩ := ih hrel
    exact ⟨congrArg₂ List.cons hreply hreplies, hend⟩

end Calls

end AxiomRT.Lib
