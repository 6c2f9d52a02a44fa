import Mathlib.Data.Set.Insert
import Mathlib.Logic.Relation

/-!
# Paths that avoid vertices

What is reached from a vertex is the vertex, and what is reached from its successors along paths
that do not go on from it again. A search that keeps the vertices it has gone on from ends.
-/

namespace Paths

open Relation

universe u

variable {α : Type u} {r : α → α → Prop} {avoided : Set α} {a x : α}

/-- A step from a vertex that is not avoided. -/
def Avoiding (r : α → α → Prop) (avoided : Set α) (a b : α) : Prop := a ∉ avoided ∧ r a b

/-- From a vertex that is avoided nothing else is reached. -/
theorem reaches_of_mem (h : a ∈ avoided) : ReflTransGen (Avoiding r avoided) a x ↔ x = a := by
  constructor
  · intro hpath
    rcases hpath.cases_head with heq | ⟨b, hstep, _⟩
    · exact heq.symm
    · exact absurd h hstep.1
  · rintro rfl
    exact .refl

/-- What is reached from a vertex, by its first step. -/
theorem reaches_iff (h : a ∉ avoided) : ReflTransGen (Avoiding r avoided) a x ↔
    x = a ∨ ∃ b, r a b ∧ ReflTransGen (Avoiding r (insert a avoided)) b x := by
  constructor
  · intro hpath
    induction hpath with
    | refl => exact .inl rfl
    | tail hpath hstep ih =>
      rename_i y z
      by_cases heq : y = a
      · -- The path starts again at the vertex.
        exact .inr ⟨z, heq ▸ hstep.2, .refl⟩
      · rcases ih with rfl | ⟨b, hedge, hrest⟩
        · exact absurd rfl heq
        · refine .inr ⟨b, hedge, hrest.tail ⟨fun hmem => ?_, hstep.2⟩⟩
          exact (Set.mem_insert_iff.mp hmem).elim heq hstep.1
  · rintro (rfl | ⟨b, hedge, hrest⟩)
    · exact .refl
    · have hfewer : ∀ y z, Avoiding r (insert a avoided) y z → Avoiding r avoided y z :=
        fun y z hstep => ⟨fun hmem => hstep.1 (Set.mem_insert_of_mem _ hmem), hstep.2⟩
      exact .head ⟨h, hedge⟩ (ReflTransGen.mono hfewer _ _ hrest)

/-- Without vertices to avoid, everything is reached. -/
theorem reaches_empty : ReflTransGen (Avoiding r ∅) a x ↔ ReflTransGen r a x :=
  ⟨ReflTransGen.mono (fun _ _ hstep => hstep.2) _ _,
    ReflTransGen.mono (fun y _ hstep => ⟨Set.notMem_empty y, hstep⟩) _ _⟩

end Paths
