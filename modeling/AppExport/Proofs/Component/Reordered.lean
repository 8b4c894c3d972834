/-
Ids of a forest whose siblings change places. However roots and siblings are reordered, the ids of the
forest are the same ones in another order, so whether one is repeated does not change. Which one is
reported does: it is the id at the first index, in pre-order, that an earlier index has as well.
-/
import AppExport.Document
import AppExport.Proofs.Component.Identity
import AppExport.Proofs.Component.Place
import Mathlib.Order.Bounds.Defs

namespace AppExport.Component

/-! ## The first repetition, by its index -/

section Repetition

variable {ids : List String} {id : String} {i j : Nat}

/-- Whether the element at an index stands at an earlier one as well. -/
def RepeatsAt (ids : List String) (j : Nat) : Prop :=
  ∃ id, ids[j]? = some id ∧ ∃ i < j, ids[i]? = some id

theorem nodup_iff_not_repeatsAt : ids.Nodup ↔ ∀ j, ¬RepeatsAt ids j := by
  rw [List.nodup_iff_getElem?_ne_getElem?]
  constructor
  · rintro h j ⟨id, hj, i, hij, hi⟩
    obtain ⟨hlength, -⟩ := List.getElem?_eq_some_iff.1 hj
    exact h i j hij hlength (hi.trans hj.symm)
  · intro h i j hij hlength heq
    have hj := List.getElem?_eq_getElem hlength
    exact h j ⟨ids[j], hj, i, hij, heq.trans hj⟩

/-- Ahead of an index, repetitions are those of the elements ahead of it. -/
theorem repeatsAt_take (h : i < j) : RepeatsAt (ids.take j) i ↔ RepeatsAt ids i := by
  have htake : ∀ k < j, (ids.take j)[k]? = ids[k]? := fun k hk => List.getElem?_take_of_lt hk
  constructor
  · rintro ⟨id, hi, k, hk, hid⟩
    rw [htake i h] at hi
    rw [htake k (Nat.lt_trans hk h)] at hid
    exact ⟨id, hi, k, hk, hid⟩
  · rintro ⟨id, hi, k, hk, hid⟩
    rw [← htake i h] at hi
    rw [← htake k (Nat.lt_trans hk h)] at hid
    exact ⟨id, hi, k, hk, hid⟩

theorem firstRepeat_iff :
    FirstRepeat id ids ↔ ∃ j, IsLeast {j | RepeatsAt ids j} j ∧ ids[j]? = some id := by
  constructor
  · rintro ⟨before, after, rfl, hmem, hnodup⟩
    have hid : (before ++ id :: after)[before.length]? = some id := by simp
    obtain ⟨i, hi, hbefore⟩ := List.mem_iff_getElem.1 hmem
    refine ⟨before.length, ⟨⟨id, hid, i, hi, ?_⟩, fun k hk => ?_⟩, hid⟩
    · rw [List.getElem?_append_left hi, List.getElem?_eq_getElem hi, hbefore]
    · by_contra hlt
      have htake := (repeatsAt_take (Nat.lt_of_not_le hlt)).2 hk
      rw [List.take_left] at htake
      exact nodup_iff_not_repeatsAt.1 hnodup k htake
  · rintro ⟨j, ⟨⟨other, hj, i, hij, hi⟩, hleast⟩, hid⟩
    obtain rfl : other = id := Option.some.inj (hj.symm.trans hid)
    obtain ⟨hlength, hat⟩ := List.getElem?_eq_some_iff.1 hj
    refine ⟨ids.take j, ids.drop (j + 1), ?_, ?_, ?_⟩
    · rw [← hat, ← List.drop_eq_getElem_cons hlength, List.take_append_drop]
    · exact List.mem_iff_getElem?.2 ⟨i, by rw [List.getElem?_take_of_lt hij, hi]⟩
    · refine nodup_iff_not_repeatsAt.2 fun k hk => ?_
      have hkj : k < j := by
        obtain ⟨_, hsome, -⟩ := hk
        obtain ⟨hk, -⟩ := List.getElem?_eq_some_iff.1 hsome
        exact Nat.lt_of_lt_of_le hk (List.length_take_le j ids)
      exact Nat.not_lt.2 (hleast ((repeatsAt_take hkj).1 hk)) hkj

end Repetition

/-! ## Siblings in another order -/

/-- Forests that differ in the order of their roots and of the children of any of their nodes: it is
changed by exchanging neighbours, one after the other. -/
inductive Reordered : Forest → Forest → Prop
  | nil : Reordered [] []
  | cons (shell : Shell) {children children' rest rest' : Forest}
    (hbelow : Reordered children children') (hrest : Reordered rest rest') :
    Reordered (shell.around children :: rest) (shell.around children' :: rest')
  | swap (a b : Node) (rest : Forest) : Reordered (a :: b :: rest) (b :: a :: rest)
  | trans {a b c : Forest} (h : Reordered a b) (h' : Reordered b c) : Reordered a c

namespace Reordered

mutual
theorem cons_self : ∀ (node : Node) {rest rest' : Forest}, Reordered rest rest' →
    Reordered (node :: rest) (node :: rest')
  | ⟨id, kind, props, children, position, size⟩, _, _, h =>
    .cons ⟨id, kind, props, position, size⟩ (refl children) h

theorem refl : ∀ forest : Forest, Reordered forest forest
  | [] => .nil
  | node :: rest => cons_self node (refl rest)
end

/-- Any order of the roots can be reached. -/
theorem of_perm {forest other : Forest} (h : forest.Perm other) : Reordered forest other := by
  induction h with
  | nil => exact .nil
  | cons node _ ih => exact cons_self node ih
  | swap a b rest => exact .swap b a rest
  | trans _ _ ih ih' => exact ih.trans ih'

/-- So can any order of the children of a node, wherever it is. -/
theorem fill {forest other : Forest} (h : Reordered forest other) (shell : Shell) (c : Context) :
    Reordered (c.fill (shell.around forest)) (c.fill (shell.around other)) := by
  have hbehind : ∀ (before : List Node) {rest rest' : Forest}, Reordered rest rest' →
      Reordered (before ++ rest) (before ++ rest') := by
    intro before rest rest' hrest
    induction before with
    | nil => exact hrest
    | cons node before ih => exact cons_self node ih
  induction c with
  | root before after => exact hbehind before (.cons shell h (refl after))
  | within before parent inner after ih => exact hbehind before (.cons parent ih (refl after))

theorem ids_around (shell : Shell) (children rest : Forest) :
    Forest.ids (shell.around children :: rest) = shell.id :: (Forest.ids children ++ Forest.ids rest) := by
  simp only [Forest.ids, Forest.walk, Node.walkAll, Shell.around, Node.walk, List.cons_append,
    List.map_cons, List.map_append]

theorem ids_cons (node : Node) (rest : Forest) :
    Forest.ids (node :: rest) = node.walk.map (·.id) ++ Forest.ids rest := by
  simp only [Forest.ids, Forest.walk, Node.walkAll, List.map_append]

/-- Ids stay the same but for their order. -/
theorem perm_ids {forest other : Forest} (h : Reordered forest other) :
    forest.ids.Perm other.ids := by
  induction h with
  | nil => exact .refl _
  | cons shell _ _ ihbelow ihrest =>
    rw [ids_around, ids_around]
    exact (ihbelow.append ihrest).cons _
  | swap a b rest =>
    simp only [ids_cons]
    rw [← List.append_assoc, ← List.append_assoc]
    exact List.perm_append_comm.append_right _
  | trans _ _ ih ih' => exact ih.trans ih'

end Reordered
end AppExport.Component

namespace AppExport.Document

open Component (Context FirstRepeat Forest Node RepeatsAt Reordered Shell)

theorem checkIds_eq_ok_iff {forest : Forest} : checkIds forest = .ok () ↔ forest.ids.Nodup := by
  rw [← Forest.repeatedId?_eq_none_iff, checkIds]
  cases forest.repeatedId? <;> simp

theorem checkIds_eq_error_iff {forest : Forest} {e : LoadError} :
    checkIds forest = .error e ↔ ∃ id, FirstRepeat id forest.ids ∧ e = .repeatedId id := by
  simp only [← Forest.repeatedId?_eq_some_iff, checkIds]
  cases forest.repeatedId? with
  | none => simp
  | some id => simp [eq_comm]

/-- A forest is accepted if and only if no id is repeated in its walk, and then no two places have the
same id, wherever they are. Otherwise the id is reported that stands at the least index at which one
is repeated. Other orders of the siblings are accepted alike, but the id that is reported may be
another one. -/
theorem checkIds_decides (forest : Forest) :
    (checkIds forest = .ok () ↔ forest.ids.Nodup) ∧
      (checkIds forest = .ok () ↔ ∀ p q a b, forest.at? p = some a → forest.at? q = some b →
        a.id = b.id → p = q) ∧
      (∀ e, checkIds forest = .error e ↔ ∃ j id, IsLeast {j | RepeatsAt forest.ids j} j ∧
        forest.ids[j]? = some id ∧ e = .repeatedId id) ∧
      (∀ other, Reordered forest other → (checkIds forest = .ok () ↔ checkIds other = .ok ())) ∧
      ∃ a b : Forest, Reordered a b ∧ checkIds a = .error (.repeatedId "x") ∧
        checkIds b = .error (.repeatedId "y") := by
  refine ⟨checkIds_eq_ok_iff, checkIds_eq_ok_iff.trans Forest.nodup_ids_iff, fun e => ?_,
    fun other h => ?_, ?_⟩
  · rw [checkIds_eq_error_iff]
    constructor
    · rintro ⟨id, hfirst, he⟩
      obtain ⟨j, hleast, hid⟩ := Component.firstRepeat_iff.1 hfirst
      exact ⟨j, id, hleast, hid, he⟩
    · rintro ⟨j, id, hleast, hid, he⟩
      exact ⟨id, Component.firstRepeat_iff.2 ⟨j, hleast, hid⟩, he⟩
  · rw [checkIds_eq_ok_iff, checkIds_eq_ok_iff, h.perm_ids.nodup_iff]
  · let x : Node := .new "x" .container
    let y : Node := .new "y" .container
    have hperm : ([x, x] ++ [y, y]).Perm ([y, y] ++ [x, x]) := List.perm_append_comm
    exact ⟨_, _, .of_perm hperm, by decide, by decide⟩

/-- Two rows of a list change places, between a header and a footer. -/
theorem checkIds_decides_rows :
    let rows : Forest := [.new "a" .text, .new "b" .text]
    let list : Shell := ⟨"list", .container, .empty, none, none⟩
    let page : Context := .within [.new "top" .header] ⟨"page", .container, .empty, none, none⟩
      (.root [] []) [.new "end" .footer]
    Reordered (page.fill (list.around rows)) (page.fill (list.around rows.reverse)) ∧
      checkIds (page.fill (list.around rows)) = .ok () ∧
      checkIds (page.fill (list.around rows.reverse)) = .ok () := by
  intro rows list page
  have hreordered := Reordered.fill (.of_perm rows.reverse_perm.symm) list page
  have hok : checkIds (page.fill (list.around rows)) = .ok () := by decide
  exact ⟨hreordered, hok, ((checkIds_decides _).2.2.2.1 _ hreordered).1 hok⟩

end AppExport.Document
