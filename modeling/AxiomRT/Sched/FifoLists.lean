import Mathlib.Data.List.FinRange
import Mathlib.Data.List.Nodup
import Mathlib.Tactic.Common
import AxiomRT.Sched.Queue

/-!
# What a fixed-priority scheduler is for

The abstract scheduler: one FIFO list for each level, in which an entry occurs at most once overall.
Levels are served in descending order and each of them from its front.
-/

namespace AxiomRT.Sched

variable {τ : Type*} {n : ℕ}

/-! ## The order of service -/

/-- The entries of the levels `ps`, level by level, each with its level. -/
def orderOn (ps : List (Fin n)) (queue : Fin n → List τ) : List (τ × Fin n) :=
  ps.flatMap fun p => (queue p).map fun t => (t, p)

/-- All entries: in descending priority, then in the order they were enqueued. -/
def order (queue : Fin n → List τ) : List (τ × Fin n) := orderOn (List.finRange n).reverse queue

/-- The entries of one level. -/
def level (es : List (τ × Fin n)) (p : Fin n) : List τ := (es.filter fun e => e.2 = p).map Prod.fst

@[simp] theorem orderOn_cons (p : Fin n) (ps : List (Fin n)) (queue : Fin n → List τ) :
    orderOn (p :: ps) queue = ((queue p).map fun t => (t, p)) ++ orderOn ps queue := rfl

theorem orderOn_congr {ps : List (Fin n)} {queue queue' : Fin n → List τ}
    (h : ∀ p ∈ ps, queue p = queue' p) : orderOn ps queue = orderOn ps queue' := by
  induction ps with
  | nil => rfl
  | cons p ps ih =>
    rw [orderOn_cons, orderOn_cons, h p List.mem_cons_self,
      ih fun p' hp' => h p' (List.mem_cons_of_mem p hp')]

theorem level_append (es es' : List (τ × Fin n)) (p : Fin n) :
    level (es ++ es') p = level es p ++ level es' p := by
  rw [level, List.filter_append, List.map_append]
  rfl

theorem level_map (ts : List τ) (p p' : Fin n) :
    level (ts.map fun t => (t, p')) p = if p' = p then ts else [] := by
  by_cases h : p' = p
  · simp [level, List.filter_map, Function.comp_def, h]
  · simp [level, List.filter_map, Function.comp_def, h]

theorem level_orderOn {ps : List (Fin n)} (hps : ps.Nodup) (queue : Fin n → List τ) (p : Fin n) :
    level (orderOn ps queue) p = if p ∈ ps then queue p else [] := by
  induction ps with
  | nil => rfl
  | cons p' ps ih =>
    obtain ⟨hnot, hps⟩ := List.nodup_cons.1 hps
    rw [orderOn_cons, level_append, level_map, ih hps]
    by_cases h : p' = p
    · subst h
      simp [hnot]
    · simp [h, Ne.symm h]

/-- The order of service determines the lists. -/
theorem level_order (queue : Fin n → List τ) (p : Fin n) : level (order queue) p = queue p := by
  rw [order, level_orderOn (List.nodup_reverse.2 (List.nodup_finRange n))]
  simp

theorem level_sublist {es es' : List (τ × Fin n)} (h : es.Sublist es') (p : Fin n) :
    (level es p).Sublist (level es' p) :=
  (h.filter _).map _

/-! ## The abstract scheduler -/

/-- FIFO lists in which an entry occurs at most once overall. -/
structure FifoLists (τ : Type*) (n : ℕ) where
  queue : Fin n → List τ
  nodup : ∀ p, (queue p).Nodup
  unique : ∀ p p' t, t ∈ queue p → t ∈ queue p' → p = p'

namespace FifoLists

/-- All lists are empty. -/
def empty : FifoLists τ n where
  queue := fun _ => []
  nodup := fun _ => List.nodup_nil
  unique := by simp

/-- `t` is in some list. -/
def Queued (l : FifoLists τ n) (t : τ) : Prop := ∃ p, t ∈ l.queue p

instance [DecidableEq τ] (l : FifoLists τ n) (t : τ) : Decidable (l.Queued t) :=
  inferInstanceAs (Decidable (∃ p, t ∈ l.queue p))

/-- Appends an entry that is in no list. -/
def append (l : FifoLists τ n) (t : τ) (p : Fin n) (h : ¬ l.Queued t) : FifoLists τ n where
  queue := Function.update l.queue p (l.queue p ++ [t])
  nodup := by
    intro p'
    by_cases hp : p' = p
    · subst hp
      rw [Function.update_self, List.nodup_append]
      refine ⟨l.nodup p', List.nodup_singleton t, ?_⟩
      intro a ha b hb hab
      rw [List.mem_singleton.1 hb] at hab
      exact h ⟨p', hab ▸ ha⟩
    · rw [Function.update_of_ne hp]
      exact l.nodup p'
  unique := by
    -- The new entry is in its own list only; every other entry is where it was.
    have hmem : ∀ {p' a}, a ∈ Function.update l.queue p (l.queue p ++ [t]) p' →
        a ∈ l.queue p' ∨ (a = t ∧ p' = p) := by
      intro p' a ha
      by_cases hp : p' = p
      · subst hp
        rw [Function.update_self, List.mem_append, List.mem_singleton] at ha
        exact ha.imp_right fun h => ⟨h, rfl⟩
      · rw [Function.update_of_ne hp] at ha
        exact .inl ha
    intro p₁ p₂ a h₁ h₂
    rcases hmem h₁ with old₁ | ⟨rfl, rfl⟩
    · rcases hmem h₂ with old₂ | ⟨rfl, rfl⟩
      · exact l.unique _ _ _ old₁ old₂
      · exact absurd ⟨p₁, old₁⟩ h
    · rcases hmem h₂ with old₂ | ⟨-, rfl⟩
      · exact absurd ⟨p₂, old₂⟩ h
      · rfl

/-- Lists whose entries are among those of `l`, in the same order. -/
def shrink (l : FifoLists τ n) (queue : Fin n → List τ)
    (h : ∀ p, (queue p).Sublist (l.queue p)) : FifoLists τ n where
  queue := queue
  nodup := fun p => (l.nodup p).sublist (h p)
  unique := fun p p' t ht ht' => l.unique p p' t ((h p).subset ht) ((h p').subset ht')

variable [DecidableEq τ]

/-- Append a thread that is in no list to the list of its level, if there is room. -/
def markReady (capacity : ℕ) (l : FifoLists τ n) (t : τ) (p : Fin n) :
    FifoLists τ n × Except QueueError Unit :=
  if h : l.Queued t then (l, .error .alreadyQueued)
  else if (l.queue p).length = capacity then (l, .error .full)
  else (l.append t p h, .ok ())

/-- Take a thread out of the list it is in. -/
def markNotReady (l : FifoLists τ n) (t : τ) : FifoLists τ n × Bool :=
  (l.shrink (fun p => (l.queue p).erase t) fun _ => List.erase_sublist, decide (l.Queued t))

/-- What stands behind the first entry that satisfies `isReady`; nothing if none does. -/
def after (isReady : τ → Bool) (es : List (τ × Fin n)) : List (τ × Fin n) :=
  (es.dropWhile fun e => !isReady e.1).tail

/-- Returns the first entry that satisfies `isReady`, and removes it and the entries before it. -/
def selectNext (l : FifoLists τ n) (isReady : τ → Bool) : FifoLists τ n × Option (τ × Fin n) :=
  (l.shrink (level (after isReady (order l.queue))) fun p => by
      have h : (after isReady (order l.queue)).Sublist (order l.queue) :=
        (List.tail_sublist _).trans (List.dropWhile_sublist _)
      have hp := level_sublist h p
      rw [level_order] at hp
      exact hp,
    (order l.queue).find? fun e => isReady e.1)

end FifoLists

end AxiomRT.Sched
