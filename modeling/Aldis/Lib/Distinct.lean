import Mathlib.Tactic

/-!
# The first items of each key

Going through a list once and keeping an item only where its key was not seen before, and what else
the first item of a kind determines.
-/

namespace Distinct

variable {α κ κ' : Type} [DecidableEq κ] [DecidableEq κ']

/-- The items whose key is neither in `seen` nor the key of an earlier item. -/
def firsts (key : α → κ) (seen : List κ) : List α → List α
  | [] => []
  | a :: rest =>
    if key a ∈ seen then firsts key seen rest else a :: firsts key (key a :: seen) rest

variable {key : α → κ} {key' : α → κ'} {seen : List κ} {items : List α} {a b : α}

theorem firsts_sublist (key : α → κ) (seen : List κ) (items : List α) :
    (firsts key seen items).Sublist items := by
  induction items generalizing seen with
  | nil => exact .slnil
  | cons a rest ih =>
      rw [firsts]
      split
      · exact (ih seen).cons a
      · exact (ih (key a :: seen)).cons_cons a

/-- Every key is kept, unless it was seen at first. -/
theorem exists_firsts (h : a ∈ items) :
    key a ∈ seen ∨ ∃ b ∈ firsts key seen items, key b = key a := by
  induction items generalizing seen with
  | nil => exact absurd h List.not_mem_nil
  | cons c rest ih =>
      rw [firsts]
      rcases List.mem_cons.1 h with rfl | hrest
      · by_cases hs : key a ∈ seen
        · exact .inl hs
        · rw [if_neg hs]
          exact .inr ⟨a, List.mem_cons_self, rfl⟩
      · by_cases hs : key c ∈ seen
        · rw [if_pos hs]
          exact ih hrest
        · rw [if_neg hs]
          have hlater : key a ∈ key c :: seen ∨
              ∃ b ∈ firsts key (key c :: seen) rest, key b = key a := ih hrest
          rcases hlater with hk | ⟨b, hb, hk⟩
          · rcases List.mem_cons.1 hk with hk | hk
            · exact .inr ⟨c, List.mem_cons_self, hk.symm⟩
            · exact .inl hk
          · exact .inr ⟨b, List.mem_cons_of_mem _ hb, hk⟩

theorem key_not_mem_of_firsts (h : a ∈ firsts key seen items) : key a ∉ seen := by
  induction items generalizing seen with
  | nil => exact absurd h List.not_mem_nil
  | cons c rest ih =>
      rw [firsts] at h
      split at h
      · exact ih h
      · rename_i hs
        rcases List.mem_cons.1 h with rfl | hrest
        · exact hs
        · exact fun hk => ih hrest (List.mem_cons_of_mem _ hk)

/-- No two of the items that are kept share a key. -/
theorem firsts_nodup_map (key : α → κ) (seen : List κ) (items : List α) :
    ((firsts key seen items).map key).Nodup := by
  induction items generalizing seen with
  | nil => exact List.nodup_nil
  | cons c rest ih =>
      rw [firsts]
      split
      · exact ih seen
      · rw [List.map_cons, List.nodup_cons]
        refine ⟨?_, ih _⟩
        intro hmem
        obtain ⟨b, hb, hk⟩ := List.mem_map.1 hmem
        apply key_not_mem_of_firsts hb
        rw [hk]
        exact List.mem_cons_self

theorem eq_of_firsts (ha : a ∈ firsts key seen items) (hb : b ∈ firsts key seen items)
    (hk : key a = key b) : a = b :=
  List.inj_on_of_nodup_map (firsts_nodup_map key seen items) ha hb hk

/-- Keys that tell the same items apart keep the same items. -/
theorem firsts_congr (done : List α) (h : ∀ a ∈ done ++ items, ∀ b ∈ done ++ items,
    key a = key b ↔ key' a = key' b) :
    firsts key (done.map key) items = firsts key' (done.map key') items := by
  induction items generalizing done with
  | nil => rfl
  | cons c rest ih =>
      have hc : c ∈ done ++ c :: rest := List.mem_append_right _ List.mem_cons_self
      have hseen : key c ∈ done.map key ↔ key' c ∈ done.map key' := by
        rw [List.mem_map, List.mem_map]
        refine exists_congr fun d => and_congr_right fun hd => ?_
        exact h d (List.mem_append_left _ hd) c hc
      have hmem : ∀ a, a ∈ (c :: done) ++ rest ↔ a ∈ done ++ c :: rest := by
        intro a
        simp only [List.cons_append, List.mem_cons, List.mem_append]
        tauto
      rw [firsts, firsts]
      by_cases hs : key c ∈ done.map key
      · rw [if_pos hs, if_pos (hseen.1 hs)]
        refine ih done fun a ha b hb => h a ?_ b ?_
        · exact (hmem a).1 (List.mem_cons_of_mem _ ha)
        · exact (hmem b).1 (List.mem_cons_of_mem _ hb)
      · rw [if_neg hs, if_neg (fun hs' => hs (hseen.2 hs'))]
        rw [← List.map_cons, ← List.map_cons,
          ih _ fun a ha b hb => h a ((hmem a).1 ha) b ((hmem b).1 hb)]

theorem mem_firsts_id {α : Type} [DecidableEq α] {items : List α} {a : α} :
    a ∈ firsts id [] items ↔ a ∈ items := by
  constructor
  · exact fun h => (firsts_sublist id [] items).subset h
  · intro h
    have hkept : id a ∈ [] ∨ ∃ b ∈ firsts id [] items, id b = id a := exists_firsts h
    rcases hkept with hs | ⟨b, hb, rfl⟩
    · exact absurd hs List.not_mem_nil
    · exact hb

section Lists

variable {α : Type}

/-- The first item to meet a condition is also the first to meet a stronger one that it meets. -/
theorem find?_of_imp {p q : α → Bool} {items : List α} {a : α}
    (h : items.find? p = some a) (hq : q a = true) (himp : ∀ b, q b = true → p b = true) :
    items.find? q = some a := by
  obtain ⟨-, before, rest, hitems, hbefore⟩ := List.find?_eq_some_iff_append.1 h
  refine List.find?_eq_some_iff_append.2 ⟨hq, before, rest, hitems, ?_⟩
  intro b hb
  cases hqb : q b with
  | false => rfl
  | true =>
      have hpb := hbefore b hb
      rw [himp b hqb] at hpb
      exact hpb

/-- The first item of a kind splits a list in one way. -/
theorem split_unique {p : α → Bool} {a b s t : List α} {x y : α}
    (ha : ∀ c ∈ a, p c = false) (hb : ∀ c ∈ b, p c = false) (hx : p x = true)
    (hy : p y = true) (h : a ++ x :: s = b ++ y :: t) : a = b ∧ x = y ∧ s = t := by
  induction a generalizing b with
  | nil =>
      cases b with
      | nil =>
          obtain ⟨rfl, rfl⟩ := List.cons.inj h
          exact ⟨rfl, rfl, rfl⟩
      | cons c b =>
          obtain ⟨rfl, -⟩ := List.cons.inj h
          rw [hb x List.mem_cons_self] at hx
          cases hx
  | cons c a ih =>
      cases b with
      | nil =>
          obtain ⟨rfl, -⟩ := List.cons.inj h
          rw [ha c List.mem_cons_self] at hy
          cases hy
      | cons d b =>
          obtain ⟨rfl, htail⟩ := List.cons.inj h
          obtain ⟨rfl, hxy⟩ := ih (fun e he => ha e (List.mem_cons_of_mem _ he))
            (fun e he => hb e (List.mem_cons_of_mem _ he)) htail
          exact ⟨rfl, hxy⟩

/-- Of distinct items, the ones kept by a test are a sublist's where it tests membership. -/
theorem filter_eq_of_sublist {kept items : List α} {p : α → Bool}
    (h : kept.Sublist items) (hn : items.Nodup) (hp : ∀ a ∈ items, p a = true ↔ a ∈ kept) :
    items.filter p = kept := by
  induction h with
  | slnil => rfl
  | @cons kept items a h ih =>
      rw [List.nodup_cons] at hn
      have ha : p a ≠ true := fun hpa => hn.1 (h.subset ((hp a List.mem_cons_self).1 hpa))
      rw [List.filter_cons, if_neg ha]
      exact ih hn.2 fun b hb => hp b (List.mem_cons_of_mem _ hb)
  | @cons_cons kept items a h ih =>
      rw [List.nodup_cons] at hn
      rw [List.filter_cons, if_pos ((hp a List.mem_cons_self).2 List.mem_cons_self)]
      rw [ih hn.2]
      intro b hb
      rw [hp b (List.mem_cons_of_mem _ hb), List.mem_cons]
      apply or_iff_right
      rintro rfl
      exact hn.1 hb

theorem exists_of_forall₂ {β : Type} {R : α → β → Prop} {xs : List α} {ys : List β} {x : α}
    (h : List.Forall₂ R xs ys) (hx : x ∈ xs) : ∃ y ∈ ys, R x y := by
  induction h with
  | nil => exact absurd hx List.not_mem_nil
  | @cons a b xs ys hab _ ih =>
      rcases List.mem_cons.1 hx with rfl | hx
      · exact ⟨b, List.mem_cons_self, hab⟩
      · obtain ⟨y, hy, hr⟩ := ih hx
        exact ⟨y, List.mem_cons_of_mem _ hy, hr⟩

end Lists

end Distinct
