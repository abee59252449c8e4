import Mathlib.Logic.Function.Basic

/-!
# Mutual exclusion

Threads in phases, some of which lie inside a section that a lock guards. The lock is taken
exactly while one thread is inside.
-/

namespace Interaction

variable {ι S : Type}

/-- The lock is free and no thread is inside, or it is taken by the only thread inside. -/
inductive Exclusive (inside : S → Prop) : Bool → (ι → S) → Prop
  | free {phase : ι → S} (outside : ∀ thread, ¬inside (phase thread)) : Exclusive inside false phase
  | taken {phase : ι → S} (owner : ι) (own : inside (phase owner))
      (others : ∀ thread, thread ≠ owner → ¬inside (phase thread)) : Exclusive inside true phase

namespace Exclusive

variable {inside : S → Prop} {held : Bool} {phase : ι → S} {thread other : ι} {next : S}

/-- Two threads inside are the same. -/
theorem unique (exclusive : Exclusive inside held phase) (first : inside (phase thread))
    (second : inside (phase other)) : thread = other := by
  cases exclusive with
  | free outside => exact absurd first (outside thread)
  | taken owner own others =>
    have same : ∀ each, inside (phase each) → each = owner := fun each within => by
      by_contra different
      exact others each different within
    exact (same thread first).trans (same other second).symm

/-- The lock is free while no thread is inside. -/
theorem free_of_outside (exclusive : Exclusive inside held phase)
    (outside : ∀ thread, ¬inside (phase thread)) : held = false := by
  cases exclusive with
  | free _ => rfl
  | taken owner own _ => exact absurd own (outside owner)

/-- The lock is taken exactly while a thread is inside. -/
theorem held_iff (exclusive : Exclusive inside held phase) :
    held = true ↔ ∃ thread, inside (phase thread) := by
  cases exclusive with
  | free outside => exact iff_of_false nofun fun ⟨thread, within⟩ => outside thread within
  | taken owner own _ => exact iff_of_true rfl ⟨owner, own⟩

variable [DecidableEq ι]

/-- A thread that takes the free lock enters. -/
theorem enter (exclusive : Exclusive inside false phase) (entered : inside next) :
    Exclusive inside true (Function.update phase thread next) := by
  cases exclusive with
  | free outside =>
    refine .taken thread (by rwa [Function.update_self]) fun other different => ?_
    rw [Function.update_of_ne different]
    exact outside other

/-- The thread inside frees the lock when it leaves. -/
theorem leave (exclusive : Exclusive inside held phase) (within : inside (phase thread))
    (left : ¬inside next) : Exclusive inside false (Function.update phase thread next) := by
  refine .free fun other => ?_
  by_cases same : other = thread
  · subst same
    rwa [Function.update_self]
  · rw [Function.update_of_ne same]
    exact fun second => same (exclusive.unique second within)

/-- A thread may move as long as it stays on its side. -/
theorem move (exclusive : Exclusive inside held phase)
    (side : inside next ↔ inside (phase thread)) :
    Exclusive inside held (Function.update phase thread next) := by
  have kept : ∀ other, inside (Function.update phase thread next other) ↔ inside (phase other) := by
    intro other
    by_cases same : other = thread
    · subst same
      rw [Function.update_self, side]
    · rw [Function.update_of_ne same]
  cases exclusive with
  | free outside => exact .free fun other => (kept other).not.mpr (outside other)
  | taken owner own others =>
    exact .taken owner ((kept owner).mpr own) fun other different =>
      (kept other).not.mpr (others other different)

end Exclusive

end Interaction
