/-
# Queues that lose entries

The account of a queue from which entries leave at the front, and from which some are evicted
on the way. Nothing is lost or invented: what arrived is what left, was evicted or still
waits. Nobody overtakes: what left and what waits come in the order of arrival.
-/

import Mathlib

namespace Kens.Semantics

variable {α : Type*} {arrived departed evicted queue : List α} {entry : α}

/-- What has become of the entries that arrived. -/
structure Accounts (arrived departed evicted queue : List α) : Prop where
  inOrder : (departed ++ queue).Sublist arrived
  complete : arrived.Perm (departed ++ evicted ++ queue)

namespace Accounts

theorem nil : Accounts ([] : List α) [] [] [] := ⟨List.Sublist.refl _, List.Perm.refl _⟩

theorem length_eq (h : Accounts arrived departed evicted queue) :
    arrived.length = departed.length + evicted.length + queue.length := by
  rw [h.complete.length_eq, List.length_append, List.length_append]

/-- An entry joins the queue. -/
theorem arrive (h : Accounts arrived departed evicted queue) (entry : α) :
    Accounts (arrived ++ [entry]) departed evicted (queue ++ [entry]) := by
  constructor
  · rw [← List.append_assoc]
    exact h.inOrder.append (List.Sublist.refl _)
  · rw [← List.append_assoc]
    exact h.complete.append_right _

/-- The first entry of the queue leaves. -/
theorem depart (h : Accounts arrived departed evicted (entry :: queue)) :
    Accounts arrived (departed ++ [entry]) evicted queue := by
  constructor
  · rw [List.append_assoc]
    exact h.inOrder
  · refine h.complete.trans ?_
    rw [List.append_assoc, List.append_assoc, List.append_assoc]
    exact List.perm_middle.append_left departed

/-- An entry is taken out of the queue, wherever it stands. -/
theorem evict {index : ℕ} (h : Accounts arrived departed evicted queue)
    (found : queue[index]? = some entry) :
    Accounts arrived departed (evicted ++ [entry]) (queue.eraseIdx index) := by
  constructor
  · exact ((List.Sublist.refl departed).append (List.eraseIdx_sublist queue index)).trans h.inOrder
  · refine h.complete.trans ?_
    obtain ⟨inside, rfl⟩ := List.getElem?_eq_some_iff.mp found
    rw [List.append_assoc, List.append_assoc, List.append_assoc]
    exact ((List.getElem_cons_eraseIdx_perm inside).symm.append_left evicted).append_left departed

end Accounts

/-! Lists that are related to a part of another one. -/

theorem sublistForall₂_of_sublist {β : Type*} {R : α → β → Prop} {part whole : List α}
    {images : List β} (sub : part.Sublist whole) (related : List.Forall₂ R whole images) :
    List.SublistForall₂ R part images := by
  induction sub generalizing images with
  | slnil => exact .nil
  | cons entry sub ih =>
    cases related with
    | cons first rest => exact .cons_right (ih rest)
  | cons_cons entry sub ih =>
    cases related with
    | cons first rest => exact .cons first (ih rest)

/-- Loss before and after a relation is loss. -/
theorem sublistForall₂_trans {β : Type*} {R : α → β → Prop} {part whole : List α}
    {images arrived : List β} (sub : part.Sublist whole) (related : List.Forall₂ R whole images)
    (sub' : images.Sublist arrived) : List.SublistForall₂ R part arrived := by
  obtain ⟨chosen, related', inside⟩ :=
    List.sublistForall₂_iff.mp (sublistForall₂_of_sublist sub related)
  exact List.sublistForall₂_iff.mpr ⟨chosen, related', inside.trans sub'⟩

/-- Where one list is filtered as the other one is mapped, they stay related. -/
theorem forall₂_filterMap {β γ : Type*} {R : α → β → Prop} {S : γ → β → Prop} {f : α → Option γ}
    {keep : β → Bool} {entries : List α} {images : List β} (related : List.Forall₂ R entries images)
    (agree : ∀ entry ∈ entries, ∀ image, R entry image →
      f entry = none ∧ keep image = false ∨
        ∃ value, f entry = some value ∧ keep image = true ∧ S value image) :
    List.Forall₂ S (entries.filterMap f) (images.filter keep) := by
  induction related with
  | nil => exact .nil
  | @cons entry image entries images first rest ih =>
    have later := ih fun other member => agree other (List.mem_cons_of_mem _ member)
    rcases agree entry List.mem_cons_self image first with ⟨none, out⟩ | ⟨value, some, kept, same⟩
    · rw [List.filterMap_cons_none none, List.filter_cons_of_neg (by simp [out])]
      exact later
    · rw [List.filterMap_cons_some some, List.filter_cons_of_pos kept]
      exact .cons same later

theorem forall_mem_of_forall₂ {β : Type*} {R : α → β → Prop} {P : α → Prop} {entries : List α}
    {images : List β} (related : List.Forall₂ R entries images) (holds : ∀ a b, R a b → P a) :
    ∀ entry ∈ entries, P entry := by
  induction related with
  | nil => simp
  | cons first _ ih =>
    intro entry member
    rcases List.mem_cons.mp member with rfl | later
    · exact holds _ _ first
    · exact ih entry later

theorem forall₂_comp {β γ : Type*} {R : α → β → Prop} {S : β → γ → Prop} {entries : List α}
    {images : List β} {values : List γ} (first : List.Forall₂ R entries images)
    (second : List.Forall₂ S images values) :
    List.Forall₂ (Relation.Comp R S) entries values := by
  induction first generalizing values with
  | nil =>
    cases second
    exact .nil
  | cons head tail ih =>
    cases second with
    | cons head' tail' => exact .cons ⟨_, head, head'⟩ (ih tail')

end Kens.Semantics
