import Mathlib

/-!
# Walk — a tree visited breadth first

A branching gives each value its children, which together are smaller than
the value. The walk visits the first value of a list and puts its children
at the end of the list; so it comes by every value below those it starts
from, and by no other.
-/

namespace Lib

universe u

/-- Values and their children; some size decreases from a value to them. -/
structure Branching (α : Type u) where
  children : α → List α
  finite : ∃ size : α → Nat, ∀ a, ((children a).map size).sum < size a

namespace Branching
variable {α : Type u} (b : Branching α)

/-- A size that decreases, to count the walk down with. -/
noncomputable def size : α → Nat := b.finite.choose

/-- The values of the list and all below them, breadth first. -/
def walk : List α → List α
  | [] => []
  | a :: todo => a :: walk (todo ++ b.children a)
termination_by todo => (todo.map b.size).sum
decreasing_by
  have hsmaller : ((b.children a).map b.size).sum < b.size a := b.finite.choose_spec a
  simp only [List.map_append, List.sum_append, List.map_cons, List.sum_cons]
  omega

/-- `a` is `t`, or below one of its children. -/
def Below (t a : α) : Prop := Relation.ReflTransGen (fun t c => c ∈ b.children t) t a

variable {b}

theorem below_iff {t a : α} : b.Below t a ↔ a = t ∨ ∃ c ∈ b.children t, b.Below c a := by
  rw [Below, Relation.ReflTransGen.cases_head_iff, eq_comm]
  exact Iff.rfl

/-- **The walk visits what lies below its start**, and nothing else. -/
theorem mem_walk {todo : List α} {a : α} : a ∈ b.walk todo ↔ ∃ t ∈ todo, b.Below t a := by
  induction todo using walk.induct b with
  | case1 => simp [walk]
  | case2 t todo ih =>
      rw [walk, List.mem_cons, ih]
      constructor
      · rintro (heq | ⟨t', ht', hbelow⟩)
        · exact ⟨t, List.mem_cons_self, below_iff.mpr (.inl heq)⟩
        · rcases List.mem_append.mp ht' with htodo | hchild
          · exact ⟨t', List.mem_cons_of_mem t htodo, hbelow⟩
          · exact ⟨t, List.mem_cons_self, below_iff.mpr (.inr ⟨t', hchild, hbelow⟩)⟩
      · rintro ⟨t', ht', hbelow⟩
        rcases List.mem_cons.mp ht' with heq | htodo
        · rw [heq] at hbelow
          rcases below_iff.mp hbelow with hself | ⟨c, hc, hbelow⟩
          · exact .inl hself
          · exact .inr ⟨c, List.mem_append_right todo hc, hbelow⟩
        · exact .inr ⟨t', List.mem_append_left _ htodo, hbelow⟩

end Branching

end Lib
