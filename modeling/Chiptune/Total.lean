/-!
# Totals

The sum of a measure over the elements of a list.
-/

namespace Chiptune

variable {α β : Type}

def total (measure : α → Nat) : List α → Nat
  | [] => 0
  | x :: rest => measure x + total measure rest

theorem total_append (measure : α → Nat) (xs ys : List α) :
    total measure (xs ++ ys) = total measure xs + total measure ys := by
  induction xs with
  | nil => simp [total]
  | cons x rest ih => simp [total, ih, Nat.add_assoc]

theorem total_map (measure : β → Nat) (f : α → β) (xs : List α) :
    total measure (xs.map f) = total (fun x => measure (f x)) xs := by
  induction xs with
  | nil => rfl
  | cons x rest ih => simp [total, ih]

theorem total_flatMap (measure : β → Nat) (f : α → List β) (xs : List α) :
    total measure (xs.flatMap f) = total (fun x => total measure (f x)) xs := by
  induction xs with
  | nil => rfl
  | cons x rest ih => rw [List.flatMap_cons, total_append, ih, total]

theorem total_zipIdx (measure : α → Nat) (xs : List α) :
    total (fun entry : α × Nat => measure entry.1) xs.zipIdx = total measure xs := by
  rw [← total_map measure Prod.fst, List.zipIdx_map_fst]

theorem total_const {measure : α → Nat} (size : Nat) {xs : List α}
    (h : ∀ x ∈ xs, measure x = size) : total measure xs = size * xs.length := by
  induction xs with
  | nil => rfl
  | cons x rest ih =>
    rw [total, h x (by simp), ih fun other ho => h other (by simp [ho]), List.length_cons,
      Nat.mul_succ, Nat.add_comm]

end Chiptune
