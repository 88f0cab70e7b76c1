-- SUMMARY: The hull of some points has extremes of their coordinates for edges, by any key that comparisons agree with.
import Mathlib.Data.List.Induction
import Mathlib.Order.Lattice
import SeparableBlur.Geometry.Rect

/-!
# Extremes

The hull is found in one pass that keeps the lowest and the highest coordinate so far
on each axis. Whatever such a pass compares by, it ends with a value of the list
that nothing in the list comes before.

Comparing need not order all scalars. It is enough that it agrees with a key on the
coordinates that occur.
-/

namespace SeparableBlur

/-! ## Passes over a list -/

section

variable {α κ : Type} [LinearOrder κ] (before : α → α → Prop) [DecidableRel before]

/-- The one of two values that a comparison picks. Where it fails, the second is taken. -/
def pick (a b : α) : α := if before a b then a else b

theorem pick_eq_or (a b : α) : pick before a b = a ∨ pick before a b = b := by
  unfold pick
  split
  · exact .inl rfl
  · exact .inr rfl

variable {before}

theorem pick_le {key : α → κ} {a b : α} (h : before a b ↔ key a < key b) :
    key (pick before a b) ≤ key a ∧ key (pick before a b) ≤ key b := by
  unfold pick
  split
  case isTrue hbefore => exact ⟨le_refl _, (h.1 hbefore).le⟩
  case isFalse hnot => exact ⟨not_lt.1 (mt h.2 hnot), le_refl _⟩

/-- The pass ends with a value of the list that nothing in the list comes before. -/
theorem foldl_pick {key : α → κ} {first : α} {rest : List α}
    (h : ∀ a ∈ first :: rest, ∀ b ∈ first :: rest, before a b ↔ key a < key b) :
    rest.foldl (pick before) first ∈ first :: rest ∧
      ∀ a ∈ first :: rest, key (rest.foldl (pick before) first) ≤ key a := by
  induction rest generalizing first with
  | nil => simp
  | cons next rest ih =>
    have hfirst : first ∈ first :: next :: rest := List.mem_cons_self
    have hnext : next ∈ first :: next :: rest := List.mem_cons_of_mem _ List.mem_cons_self
    obtain ⟨hfirstLe, hnextLe⟩ := pick_le (h first hfirst next hnext)
    -- The pass goes on from one of the first two values, as if the other had not been there.
    have hpicked : pick before first next ∈ first :: next :: rest := by
      rcases pick_eq_or before first next with heq | heq
      · rwa [heq]
      · rwa [heq]
    have hsub : ∀ a ∈ pick before first next :: rest, a ∈ first :: next :: rest := by
      refine List.forall_mem_cons.2 ⟨hpicked, fun a ha => ?_⟩
      exact List.mem_cons_of_mem _ (List.mem_cons_of_mem _ ha)
    obtain ⟨hmem, hle⟩ := ih fun a ha b hb => h a (hsub a ha) b (hsub b hb)
    obtain ⟨hpickedLe, hrest⟩ := List.forall_mem_cons.1 hle
    refine ⟨hsub _ hmem, List.forall_mem_cons.2 ⟨hpickedLe.trans hfirstLe, ?_⟩⟩
    exact List.forall_mem_cons.2 ⟨hpickedLe.trans hnextLe, hrest⟩

end

/-! ## Edges -/

namespace Rect

variable {α κ : Type} [LinearOrder κ]

/-- Each edge is a coordinate of one of the points, and by the key no point lies beyond it. -/
structure Spans (key : α → κ) (box : Rect α) (points : List (Vec2 α)) : Prop where
  left : box.left ∈ points.map (·.x) ∧ ∀ a ∈ points.map (·.x), key box.left ≤ key a
  top : box.top ∈ points.map (·.y) ∧ ∀ a ∈ points.map (·.y), key box.top ≤ key a
  right : box.right ∈ points.map (·.x) ∧ ∀ a ∈ points.map (·.x), key a ≤ key box.right
  bottom : box.bottom ∈ points.map (·.y) ∧ ∀ a ∈ points.map (·.y), key a ≤ key box.bottom

variable [Scalar α]

/-- The pass over points is a pass for each edge. -/
theorem hull_eq (first : Vec2 α) (rest : List (Vec2 α)) :
    hull first rest =
      ⟨(rest.map (·.x)).foldl (pick (· < ·)) first.x, (rest.map (·.y)).foldl (pick (· < ·)) first.y,
        (rest.map (·.x)).foldl (pick fun a b => b < a) first.x,
        (rest.map (·.y)).foldl (pick fun a b => b < a) first.y⟩ := by
  -- The pass takes in one point after the other, so the list is taken apart at its end.
  induction rest using List.reverseRecOn with
  | nil => rfl
  | append_singleton rest p ih =>
    have happend : hull first (rest ++ [p]) =
        ⟨pick (· < ·) (hull first rest).left p.x, pick (· < ·) (hull first rest).top p.y,
          pick (fun a b => b < a) (hull first rest).right p.x,
          pick (fun a b => b < a) (hull first rest).bottom p.y⟩ := by
      simp only [hull, List.foldl_append, List.foldl_cons, List.foldl_nil]
      rfl
    rw [happend, ih]
    simp only [List.map_append, List.map_cons, List.map_nil, List.foldl_append, List.foldl_cons,
      List.foldl_nil]

theorem hull_spans (key : α → κ) {first : Vec2 α} {rest : List (Vec2 α)}
    (hx : ∀ a ∈ (first :: rest).map (·.x), ∀ b ∈ (first :: rest).map (·.x), a < b ↔ key a < key b)
    (hy : ∀ a ∈ (first :: rest).map (·.y), ∀ b ∈ (first :: rest).map (·.y), a < b ↔ key a < key b) :
    (hull first rest).Spans key (first :: rest) := by
  rw [hull_eq]
  have hx' : ∀ a ∈ (first :: rest).map (·.x), ∀ b ∈ (first :: rest).map (·.x),
      b < a ↔ OrderDual.toDual (key a) < OrderDual.toDual (key b) := fun a ha b hb => hx b hb a ha
  have hy' : ∀ a ∈ (first :: rest).map (·.y), ∀ b ∈ (first :: rest).map (·.y),
      b < a ↔ OrderDual.toDual (key a) < OrderDual.toDual (key b) := fun a ha b hb => hy b hb a ha
  exact ⟨foldl_pick hx, foldl_pick hy, foldl_pick hx', foldl_pick hy'⟩

end Rect

end SeparableBlur
