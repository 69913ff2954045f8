import Mathlib.Tactic

/-!
# The one candidate of the highest key

A choice among the admissible items of a list by a key that several of them may share. The choice
is made only when a single item holds the highest key.
-/

namespace Best

variable {α β κ : Type} [LinearOrder κ] {p q : α → Prop} {key : α → κ} {items items' : List α}
  {a b : α}

/-- `a` is admissible, and every other admissible item has a lower key. -/
def Winner (p : α → Prop) (key : α → κ) (items : List α) (a : α) : Prop :=
  ∃ before after, items = before ++ a :: after ∧ p a ∧
    ∀ b ∈ before ++ after, p b → key b < key a

theorem Winner.mem (h : Winner p key items a) : a ∈ items := by
  obtain ⟨before, after, rfl, -, -⟩ := h
  exact List.mem_append_right before List.mem_cons_self

theorem Winner.admissible (h : Winner p key items a) : p a := by
  obtain ⟨-, -, -, ha, -⟩ := h
  exact ha

/-- The winner is the only admissible item of its key or a higher one. -/
theorem Winner.eq_of_key_le (h : Winner p key items a) (hb : b ∈ items) (hp : p b)
    (hk : key a ≤ key b) : b = a := by
  obtain ⟨before, after, rfl, -, hbeats⟩ := h
  by_contra hne
  have hmem : b ∈ before ++ after := by
    rw [List.mem_append, List.mem_cons] at hb
    rw [List.mem_append]
    tauto
  exact absurd hk (not_le.2 (hbeats b hmem hp))

theorem Winner.key_le (h : Winner p key items a) (hb : b ∈ items) (hp : p b) : key b ≤ key a := by
  by_contra hk
  have he : b = a := h.eq_of_key_le hb hp (not_le.1 hk).le
  exact hk (he ▸ le_refl _)

theorem Winner.unique (ha : Winner p key items a) (hb : Winner p key items b) : a = b :=
  hb.eq_of_key_le ha.mem ha.admissible (ha.key_le hb.mem hb.admissible)

/-- Admitting more items never lowers the key of the winner. -/
theorem Winner.key_mono (hpq : ∀ a ∈ items, p a → q a) (ha : Winner p key items a)
    (hb : Winner q key items b) : key a ≤ key b :=
  hb.key_le ha.mem (hpq a ha.mem ha.admissible)

/-- The order of the items decides nothing. -/
theorem Winner.perm (hperm : items.Perm items') (h : Winner p key items a) :
    Winner p key items' a := by
  have hmem : a ∈ items' := hperm.subset h.mem
  obtain ⟨before, after, rfl, ha, hbeats⟩ := h
  obtain ⟨before', after', rfl⟩ := List.append_of_mem hmem
  have hothers : (before ++ after).Perm (before' ++ after') := by
    have hcons : (a :: (before ++ after)).Perm (a :: (before' ++ after')) :=
      List.perm_middle.symm.trans (hperm.trans List.perm_middle)
    exact hcons.cons_inv
  exact ⟨before', after', rfl, ha, fun b hb => hbeats b (hothers.symm.subset hb)⟩

section Chosen

variable [DecidablePred p]

theorem Winner.max?_eq (h : Winner p key items a) :
    ((items.filter (fun b => p b)).map key).max? = some (key a) := by
  rw [List.max?_eq_some_iff]
  constructor
  · apply List.mem_map_of_mem
    exact List.mem_filter.2 ⟨h.mem, decide_eq_true h.admissible⟩
  · intro k hk
    obtain ⟨b, hb, rfl⟩ := List.mem_map.1 hk
    rw [List.mem_filter, decide_eq_true_iff] at hb
    exact h.key_le hb.1 hb.2

theorem Winner.filter_eq (h : Winner p key items a) :
    items.filter (fun b => p b ∧ key b = key a) = [a] := by
  obtain ⟨before, after, rfl, ha, hbeats⟩ := h
  have hother : ∀ b ∈ before ++ after, ¬ (p b ∧ key b = key a) := by
    intro b hb hp
    exact absurd hp.2 (hbeats b hb hp.1).ne
  refine List.filter_eq_cons_iff.2 ⟨before, after, rfl, ?_, ?_, ?_⟩
  · intro b hb
    rw [decide_eq_true_iff]
    exact hother b (List.mem_append_left _ hb)
  · exact decide_eq_true ⟨ha, rfl⟩
  · rw [List.filter_eq_nil_iff]
    intro b hb
    rw [decide_eq_true_iff]
    exact hother b (List.mem_append_right _ hb)

/-- Who alone holds the highest key is the winner. -/
theorem winner_of_alone (hmax : ((items.filter (fun b => p b)).map key).max? = some (key a))
    (hone : items.filter (fun b => p b ∧ key b = key a) = [a]) : Winner p key items a := by
  obtain ⟨before, after, hitems, hbefore, ha, hafter⟩ := List.filter_eq_cons_iff.1 hone
  rw [List.filter_eq_nil_iff] at hafter
  rw [decide_eq_true_iff] at ha
  refine ⟨before, after, hitems, ha.1, ?_⟩
  intro b hb hp
  have hne : key b ≠ key a := by
    intro hk
    have hboth : decide (p b ∧ key b = key a) = true := decide_eq_true ⟨hp, hk⟩
    rcases List.mem_append.1 hb with hb | hb
    · exact hbefore b hb hboth
    · exact hafter b hb hboth
  have hmem : b ∈ items := by
    rw [hitems]
    exact List.mem_append.2 ((List.mem_append.1 hb).imp_right (List.mem_cons_of_mem a))
  have hle : key b ≤ key a := by
    apply (List.max?_eq_some_iff.1 hmax).2
    apply List.mem_map_of_mem
    exact List.mem_filter.2 ⟨hmem, decide_eq_true hp⟩
  exact lt_of_le_of_ne hle hne

/-- How the winner is found: by the highest key, and by who holds it. -/
theorem winner_iff : Winner p key items a ↔
    ((items.filter (fun b => p b)).map key).max? = some (key a) ∧
      items.filter (fun b => p b ∧ key b = key a) = [a] := by
  constructor
  · intro h
    exact ⟨h.max?_eq, h.filter_eq⟩
  · rintro ⟨hmax, hone⟩
    exact winner_of_alone hmax hone

end Chosen

section FilterMap

variable {f : β → Option α} {source : List β}

/-- A winner among what a list yields, traced to the item that yields it. -/
theorem winner_filterMap (h : Winner p key (source.filterMap f) a) :
    ∃ before x after, source = before ++ x :: after ∧ f x = some a ∧ p a ∧
      ∀ y ∈ before ++ after, ∀ b, f y = some b → p b → key b < key a := by
  obtain ⟨first, last, hsplit, ha, hbeats⟩ := h
  obtain ⟨start, rest, hsource, hstart, hrest⟩ := List.filterMap_eq_append_iff.1 hsplit
  obtain ⟨skipped, x, after, hx, hskipped, hfx, hafter⟩ := List.filterMap_eq_cons_iff.1 hrest
  refine ⟨start ++ skipped, x, after, ?_, hfx, ha, ?_⟩
  · rw [hsource, hx, List.append_assoc]
  · intro y hy b hb hp
    apply hbeats b _ hp
    rw [List.append_assoc, List.mem_append, List.mem_append] at hy
    rw [List.mem_append, ← hstart, ← hafter]
    rcases hy with hy | hy | hy
    · exact .inl (List.mem_filterMap.2 ⟨y, hy, hb⟩)
    · rw [hskipped y hy] at hb
      cases hb
    · exact .inr (List.mem_filterMap.2 ⟨y, hy, hb⟩)

end FilterMap

/-- The highest of some keys, whatever their order. -/
theorem max?_perm {keys keys' : List κ} (h : keys.Perm keys') : keys.max? = keys'.max? := by
  have hiff : ∀ k, keys.max? = some k ↔ keys'.max? = some k := by
    intro k
    rw [List.max?_eq_some_iff, List.max?_eq_some_iff, h.mem_iff]
    exact and_congr_right fun _ => forall_congr' fun b => by rw [h.mem_iff]
  exact Option.ext fun k => hiff k

end Best
