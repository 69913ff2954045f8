import Mathlib.Data.Char
import Mathlib.Data.List.Lex
import Mathlib.Tactic

/-!
# Maps as sorted association lists

A map collected from pairs, whose keys stand in order. Of two pairs with one key the later one is
kept.
-/

namespace SortedMap

variable {κ β : Type} [LinearOrder κ]

def insert (k : κ) (b : β) : List (κ × β) → List (κ × β)
  | [] => [(k, b)]
  | entry :: rest =>
    if k < entry.1 then (k, b) :: entry :: rest
    else if k = entry.1 then (k, b) :: rest
    else entry :: insert k b rest

def collect (pairs : List (κ × β)) : List (κ × β) :=
  pairs.foldl (fun map pair => insert pair.1 pair.2 map) []

variable {k : κ} {b : β} {map pairs : List (κ × β)}

theorem mem_of_mem_insert {entry : κ × β} (h : entry ∈ insert k b map) :
    entry = (k, b) ∨ entry ∈ map := by
  induction map with
  | nil => exact .inl (List.mem_singleton.1 h)
  | cons first rest ih =>
      rw [insert] at h
      split_ifs at h with hlt heq
      · exact List.mem_cons.1 h
      · exact (List.mem_cons.1 h).imp_right (List.mem_cons_of_mem _)
      · rcases List.mem_cons.1 h with rfl | hrest
        · exact .inr List.mem_cons_self
        · exact (ih hrest).imp_right (List.mem_cons_of_mem _)

/-- What a collected map holds are pairs it was collected from. -/
theorem mem_of_mem_collect {entry : κ × β} (h : entry ∈ collect pairs) : entry ∈ pairs := by
  have hfold : ∀ map : List (κ × β),
      entry ∈ pairs.foldl (fun map pair => insert pair.1 pair.2 map) map →
        entry ∈ map ∨ entry ∈ pairs := by
    clear h
    induction pairs with
    | nil => exact fun map => .inl
    | cons pair rest ih =>
        intro map h
        rcases ih _ h with hin | hin
        · rcases mem_of_mem_insert hin with rfl | hmap
          · exact .inr List.mem_cons_self
          · exact .inl hmap
        · exact .inr (List.mem_cons_of_mem _ hin)
  exact (hfold [] h).resolve_left List.not_mem_nil

omit [LinearOrder κ] in
theorem mem_of_lookup_eq_some [BEq κ] [LawfulBEq κ] (h : map.lookup k = some b) :
    (k, b) ∈ map := by
  induction map with
  | nil => cases h
  | cons first rest ih =>
      obtain ⟨k', b'⟩ := first
      rw [List.lookup_cons] at h
      split at h
      · rename_i he
        cases h
        rw [eq_of_beq he]
        exact List.mem_cons_self
      · exact List.mem_cons_of_mem _ (ih h)

theorem lookup_collect [BEq κ] [LawfulBEq κ] (h : (collect pairs).lookup k = some b) :
    (k, b) ∈ pairs :=
  mem_of_mem_collect (mem_of_lookup_eq_some h)

end SortedMap

/-- A map whose keys stand in strict order. -/
structure OrderedMap (κ β : Type) [LinearOrder κ] where
  entries : List (κ × β)
  sorted : entries.Pairwise fun a b => a.1 < b.1

namespace OrderedMap

variable {κ β : Type} [LinearOrder κ] {m : OrderedMap κ β} {p : κ × β → Bool} {entry : κ × β}

def empty : OrderedMap κ β := ⟨[], List.Pairwise.nil⟩

def get (m : OrderedMap κ β) (k : κ) : Option β := m.entries.lookup k

theorem keys_nodup (m : OrderedMap κ β) : (m.entries.map Prod.fst).Nodup := by
  rw [List.Nodup, List.pairwise_map]
  exact m.sorted.imp fun h => h.ne

theorem find_eq_some_iff_of_pairwise {entries : List (κ × β)}
    (sorted : entries.Pairwise fun a b => a.1 < b.1) :
    entries.find? p = some entry ↔ entry ∈ entries ∧ p entry = true ∧
      ∀ other ∈ entries, p other = true → entry.1 ≤ other.1 := by
  induction entries with
  | nil => exact iff_of_false (by simp) (by simp)
  | cons first rest ih =>
      obtain ⟨hfirst, hrest⟩ := List.pairwise_cons.1 sorted
      by_cases hp : p first = true
      · rw [List.find?_cons_of_pos hp]
        constructor
        · intro h
          obtain rfl := Option.some.inj h
          refine ⟨List.mem_cons_self, hp, ?_⟩
          intro other ho _
          rcases List.mem_cons.1 ho with rfl | ho
          · exact le_rfl
          · exact (hfirst other ho).le
        · rintro ⟨hm, -, hleast⟩
          rcases List.mem_cons.1 hm with rfl | hm
          · rfl
          · exact absurd (hleast first List.mem_cons_self hp) (hfirst entry hm).not_ge
      · rw [List.find?_cons_of_neg hp, ih hrest]
        constructor
        · rintro ⟨hm, he, hleast⟩
          refine ⟨List.mem_cons_of_mem first hm, he, ?_⟩
          intro other ho hother
          rcases List.mem_cons.1 ho with rfl | ho
          · exact absurd hother hp
          · exact hleast other ho hother
        · rintro ⟨hm, he, hleast⟩
          rcases List.mem_cons.1 hm with rfl | hm
          · exact absurd he hp
          · exact ⟨hm, he, fun other ho => hleast other (List.mem_cons_of_mem first ho)⟩

/-- The entry found first has the least of the keys that are looked for. -/
theorem find_eq_some_iff : m.entries.find? p = some entry ↔
    entry ∈ m.entries ∧ p entry = true ∧
      ∀ other ∈ m.entries, p other = true → entry.1 ≤ other.1 :=
  find_eq_some_iff_of_pairwise m.sorted

end OrderedMap
