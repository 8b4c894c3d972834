/-
First occurrences. Dropping the later occurrences of a list's items commutes with keeping only some
of the items, and doing it ahead of a map changes nothing once it is done behind the map as well.
-/
import Mathlib.Data.List.Nodup

namespace List

variable {α β : Type} [DecidableEq α] [DecidableEq β]

theorem filter_eraseDups (p : α → Bool) (l : List α) :
    l.eraseDups.filter p = (l.filter p).eraseDups := by
  match l with
  | [] => rfl
  | a :: as =>
    rw [eraseDups_cons, filter_cons, filter_cons, filter_eraseDups p (as.filter fun b => !b == a)]
    split
    · rw [eraseDups_cons, filter_filter, filter_filter]
      simp only [Bool.and_comm]
    · next ha =>
      -- an item that is not kept was not among those that are
      rw [filter_filter]
      congr 1
      refine filter_congr fun b _ => ?_
      by_cases hb : b = a
      · simp [hb, ha]
      · simp [hb]
termination_by l.length
decreasing_by exact Nat.lt_succ_of_le (length_filter_le _ _)

theorem eraseDups_map_eraseDups (f : α → β) (l : List α) :
    (l.eraseDups.map f).eraseDups = (l.map f).eraseDups := by
  match l with
  | [] => rfl
  | a :: as =>
    have hlater : ((as.filter fun b => !b == a).map f).filter (fun b => !b == f a) =
        (as.map f).filter fun b => !b == f a := by
      rw [filter_map, filter_map, filter_filter]
      congr 1
      refine filter_congr fun b _ => ?_
      by_cases hb : b = a
      · simp [hb]
      · simp [hb]
    rw [eraseDups_cons, map_cons, eraseDups_cons, map_cons, eraseDups_cons, ← filter_eraseDups,
      eraseDups_map_eraseDups f (as.filter fun b => !b == a), filter_eraseDups, hlater]
termination_by l.length
decreasing_by exact Nat.lt_succ_of_le (length_filter_le _ _)

theorem nodup_eraseDups (l : List α) : l.eraseDups.Nodup := by
  match l with
  | [] => exact nodup_nil
  | a :: as =>
    rw [eraseDups_cons, nodup_cons]
    refine ⟨fun ha => ?_, nodup_eraseDups _⟩
    have hmem := mem_eraseDups.1 ha
    simp at hmem
termination_by l.length
decreasing_by exact Nat.lt_succ_of_le (length_filter_le _ _)

theorem eraseDups_of_nodup {l : List α} (h : l.Nodup) : l.eraseDups = l := by
  induction l with
  | nil => rfl
  | cons a as ih =>
    obtain ⟨ha, has⟩ := nodup_cons.1 h
    have hkept : (as.filter fun b => !b == a) = as :=
      filter_eq_self.2 fun b hb => by simpa using fun e : b = a => ha (e ▸ hb)
    rw [eraseDups_cons, hkept, ih has]

theorem map_eraseDups_of_inj_on {f : α → β} {l : List α}
    (h : ∀ a ∈ l, ∀ b ∈ l, f a = f b → a = b) : l.eraseDups.map f = (l.map f).eraseDups := by
  have hnodup : (l.eraseDups.map f).Nodup := by
    refine Nodup.map_on (fun a ha b hb => h a (mem_eraseDups.1 ha) b (mem_eraseDups.1 hb)) ?_
    exact nodup_eraseDups l
  rw [← eraseDups_map_eraseDups, eraseDups_of_nodup hnodup]

end List
