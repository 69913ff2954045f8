import Mathlib.Tactic

/-!
# Scanning a stream for frames

A scanner looks at the front of its buffer: it drops one item, waits for more, or takes a frame
off. When more input does not change what it decided, it forms the same frames however the stream
is cut into pieces.
-/

namespace Scanner

variable {α F : Type}

inductive Verdict (F : Type) where
  | skip
  | wait
  | found (frame : F) (size : ℕ)

/-- The next frame of a buffer, if there is one, and what is left of the buffer. -/
def next (look : List α → Verdict F) : List α → Option F × List α
  | [] => (none, [])
  | a :: rest => match look (a :: rest) with
    | .skip => next look rest
    | .wait => (none, a :: rest)
    | .found frame size => (some frame, (a :: rest).drop size)

/-- A verdict that was reached stands, whatever comes after. -/
structure Steady (look : List α → Verdict F) : Prop where
  skip : ∀ xs ys, look xs = .skip → look (xs ++ ys) = .skip
  found : ∀ xs ys frame size, look xs = .found frame size →
    size ≤ xs.length ∧ look (xs ++ ys) = .found frame size

/-- The frames that are formed from a stream. -/
inductive Formed (look : List α → Verdict F) : List α → F → Prop
  | here {xs rest : List α} {frame : F} (h : next look xs = (some frame, rest)) :
      Formed look xs frame
  | later {xs rest : List α} {frame other : F} (h : next look xs = (some other, rest))
      (hf : Formed look rest frame) : Formed look xs frame

variable {look : List α → Verdict F} {xs ys rest : List α} {frame : F}

theorem next_append_of_some (hs : Steady look) (h : next look xs = (some frame, rest)) :
    next look (xs ++ ys) = (some frame, rest ++ ys) := by
  induction xs with
  | nil => cases h
  | cons a xs ih =>
      rw [List.cons_append, next]
      rw [next] at h
      cases hl : look (a :: xs) with
      | skip =>
          have hl' := hs.skip _ ys hl
          rw [List.cons_append] at hl'
          simp only [hl] at h
          simp only [hl']
          exact ih h
      | wait =>
          simp only [hl] at h
          cases h
      | found other size =>
          obtain ⟨hsize, hl'⟩ := hs.found _ ys other size hl
          rw [List.cons_append] at hl'
          simp only [hl] at h
          simp only [hl']
          obtain ⟨hframe, hrest⟩ := Prod.mk.inj h
          rw [← hframe, ← hrest, ← List.cons_append, List.drop_append_of_le_length hsize]

/-- Where no frame is complete yet, only what is left of the buffer matters later. -/
theorem next_append_of_none (hs : Steady look) (h : next look xs = (none, rest)) :
    next look (xs ++ ys) = next look (rest ++ ys) := by
  induction xs with
  | nil =>
      obtain ⟨-, hrest⟩ := Prod.mk.inj h
      rw [← hrest]
  | cons a xs ih =>
      rw [next] at h
      cases hl : look (a :: xs) with
      | skip =>
          have hl' := hs.skip _ ys hl
          rw [List.cons_append] at hl'
          simp only [hl] at h
          rw [List.cons_append, next]
          simp only [hl']
          exact ih h
      | wait =>
          simp only [hl] at h
          obtain ⟨-, hrest⟩ := Prod.mk.inj h
          rw [← hrest]
      | found other size =>
          simp only [hl] at h
          cases h

/-- `buffer` is what a scanner keeps of `stream`: later frames are frames of the whole stream. -/
def Keeps (look : List α → Verdict F) (stream buffer : List α) : Prop :=
  ∀ more frame, Formed look (buffer ++ more) frame → Formed look (stream ++ more) frame

theorem Keeps.push (h : Keeps look xs ys) (more : List α) :
    Keeps look (xs ++ more) (ys ++ more) := by
  intro more' frame hf
  rw [List.append_assoc] at hf ⊢
  exact h _ frame hf

theorem Keeps.next_none (hs : Steady look) (h : Keeps look xs ys)
    (hn : next look ys = (none, rest)) : Keeps look xs rest := by
  intro more frame hf
  apply h more frame
  have heq : next look (ys ++ more) = next look (rest ++ more) := next_append_of_none hs hn
  cases hf with
  | here hnext => exact .here (heq.trans hnext)
  | later hnext hf => exact .later (heq.trans hnext) hf

theorem Keeps.next_some (hs : Steady look) (h : Keeps look xs ys)
    (hn : next look ys = (some frame, rest)) : Formed look xs frame ∧ Keeps look xs rest := by
  constructor
  · have hf := h [] frame (.here (next_append_of_some hs hn))
    rw [List.append_nil] at hf
    exact hf
  · intro more other hf
    exact h more other (.later (next_append_of_some hs hn) hf)

theorem formed_iff {other : F} (hn : next look xs = (some other, rest)) :
    Formed look xs frame ↔ frame = other ∨ Formed look rest frame := by
  constructor
  · intro hf
    cases hf with
    | here hnext =>
        rw [hn, Prod.mk.injEq, Option.some.injEq] at hnext
        exact .inl hnext.1.symm
    | later hnext hf =>
        rw [hn, Prod.mk.injEq] at hnext
        rw [hnext.2]
        exact .inr hf
  · rintro (rfl | hf)
    · exact .here hn
    · exact .later hn hf

theorem not_formed_nil : ¬ Formed look [] frame := by
  intro hf
  cases hf with
  | here hnext => cases hnext
  | later hnext _ => cases hnext

theorem keeps_refl : Keeps look xs xs := fun _ _ hf => hf

/-! ### The loop of a scanner -/

def turn (look : List α → Verdict F) : List α → (Option F × List α) ⊕ List α
  | [] => .inl (none, [])
  | a :: rest => match look (a :: rest) with
    | .skip => .inr rest
    | .wait => .inl (none, a :: rest)
    | .found frame size => .inl (some frame, (a :: rest).drop size)

def loop (look : List α → Verdict F) : ℕ → List α → Option (Option F × List α)
  | 0, _ => none
  | n + 1, xs => match turn look xs with
    | .inl result => some result
    | .inr rest => loop look n rest

/-- The loop returns, after at most one turn more than there are items. -/
theorem loop_eq_next {n : ℕ} (h : xs.length < n) : loop look n xs = some (next look xs) := by
  induction n generalizing xs with
  | zero => exact absurd h (Nat.not_lt_zero _)
  | succ n ih =>
      cases xs with
      | nil => rfl
      | cons a xs =>
          rw [loop, turn, next]
          cases look (a :: xs) with
          | skip => exact ih (by simpa using h)
          | wait => rfl
          | found frame size => rfl

/-! ### Draining a buffer -/

/-- The next frame of a buffer that starts at position `start`, with the position of the frame. -/
def nextAt (look : List α → Verdict F) : ℕ → List α → Option (ℕ × F) × List α
  | _, [] => (none, [])
  | start, a :: rest => match look (a :: rest) with
    | .skip => nextAt look (start + 1) rest
    | .wait => (none, a :: rest)
    | .found frame size => (some (start, frame), (a :: rest).drop size)

theorem nextAt_eq_next (start : ℕ) (xs : List α) :
    ((nextAt look start xs).1.map Prod.snd, (nextAt look start xs).2) = next look xs := by
  induction xs generalizing start with
  | nil => rfl
  | cons a xs ih =>
      rw [nextAt, next]
      cases look (a :: xs) with
      | skip => exact ih (start + 1)
      | wait => rfl
      | found frame size => rfl

theorem nextAt_length_le (start : ℕ) (xs : List α) :
    (nextAt look start xs).2.length ≤ xs.length := by
  induction xs generalizing start with
  | nil => exact le_rfl
  | cons a xs ih =>
      rw [nextAt]
      cases look (a :: xs) with
      | skip => exact (ih (start + 1)).trans (Nat.le_succ _)
      | wait => exact le_rfl
      | found frame size =>
          dsimp only
          rw [List.length_drop]
          exact Nat.sub_le _ _

/-- Taking frames off a buffer until none is complete yields `frames`. -/
inductive Emits (look : List α → Verdict F) : List α → List F → Prop
  | stop {xs rest : List α} (h : next look xs = (none, rest)) : Emits look xs []
  | take {xs rest : List α} {frame : F} {frames : List F}
      (h : next look xs = (some frame, rest)) (he : Emits look rest frames) :
      Emits look xs (frame :: frames)

/-- Taking frames off a buffer until none is complete yields `frames` and leaves `rest`. -/
inductive Drained (look : List α → Verdict F) : List α → List F → List α → Prop
  | stop {xs rest : List α} (h : next look xs = (none, rest)) : Drained look xs [] rest
  | take {xs kept rest : List α} {frame : F} {frames : List F}
      (h : next look xs = (some frame, kept)) (hd : Drained look kept frames rest) :
      Drained look xs (frame :: frames) rest

/-- Taking frames off a buffer that starts at position `start`, until none is complete, yields
`frames`, each with its position. -/
inductive Drains (look : List α → Verdict F) : ℕ → List α → List (ℕ × F) → Prop
  | stop {start : ℕ} {xs rest : List α} (h : nextAt look start xs = (none, rest)) :
      Drains look start xs []
  | take {start i : ℕ} {xs rest : List α} {frame : F} {frames : List (ℕ × F)}
      (h : nextAt look start xs = (some (i, frame), rest))
      (hd : Drains look (start + (xs.length - rest.length)) rest frames) :
      Drains look start xs ((i, frame) :: frames)

section Drains

variable {start i : ℕ} {frames : List (ℕ × F)} {a : α}

theorem Drained.emits {frames : List F} (h : Drained look xs frames rest) :
    Emits look xs frames := by
  induction h with
  | stop h => exact .stop h
  | take h _ ih => exact .take h ih

/-- The positions add nothing to what a scanner takes off. -/
theorem Drains.drained (h : Drains look start xs frames) :
    ∃ rest, Drained look xs (frames.map Prod.snd) rest := by
  induction h with
  | @stop start xs rest h =>
      refine ⟨rest, .stop ?_⟩
      rw [← nextAt_eq_next start xs, h]
      exact rfl
  | @take start i xs kept frame frames h hd ih =>
      obtain ⟨rest, ih⟩ := ih
      refine ⟨rest, .take ?_ ih⟩
      rw [← nextAt_eq_next start xs, h]
      exact rfl

theorem Drains.emits (h : Drains look start xs frames) :
    Emits look xs (frames.map Prod.snd) := by
  obtain ⟨rest, hd⟩ := h.drained
  exact hd.emits

theorem Drains.of_skip (hl : look (a :: xs) = .skip) (h : Drains look start (a :: xs) frames) :
    Drains look (start + 1) xs frames := by
  have hnext : nextAt look start (a :: xs) = nextAt look (start + 1) xs := by rw [nextAt, hl]
  cases h with
  | stop h => exact .stop (hnext ▸ h)
  | @take _ i _ rest frame frames h hd =>
      rw [hnext] at h
      have hle : (nextAt look (start + 1) xs).2.length ≤ xs.length :=
        nextAt_length_le (start + 1) xs
      rw [h] at hle
      have hlen : start + ((a :: xs).length - rest.length) =
          start + 1 + (xs.length - rest.length) := by
        rw [List.length_cons]
        dsimp only at hle
        omega
      rw [hlen] at hd
      exact .take h hd

theorem Drains.of_found {size : ℕ} (hl : look (a :: xs) = .found frame size)
    (h : Drains look start (a :: xs) frames) : ∃ later, frames = (start, frame) :: later ∧
      Drains look (start + ((a :: xs).length - ((a :: xs).drop size).length))
        ((a :: xs).drop size) later := by
  have hnext : nextAt look start (a :: xs) = (some (start, frame), (a :: xs).drop size) := by
    rw [nextAt, hl]
  cases h with
  | stop h => rw [hnext] at h; cases h
  | take h hd =>
      rw [hnext] at h
      obtain ⟨hframe, rfl⟩ := Prod.mk.inj h
      obtain ⟨rfl, rfl⟩ := Prod.mk.inj (Option.some.inj hframe)
      exact ⟨_, rfl, hd⟩

theorem nextAt_length_lt (hpos : ∀ xs frame size, look xs = .found frame size → 0 < size)
    (h : nextAt look start xs = (some (i, frame), rest)) : rest.length < xs.length := by
  induction xs generalizing start with
  | nil => cases h
  | cons a xs ih =>
      rw [nextAt] at h
      cases hl : look (a :: xs) with
      | skip =>
          simp only [hl] at h
          exact (ih h).trans (Nat.lt_succ_self _)
      | wait =>
          simp only [hl] at h
          cases h
      | found other size =>
          simp only [hl] at h
          obtain ⟨-, hrest⟩ := Prod.mk.inj h
          have hsize := hpos _ _ _ hl
          rw [← hrest, List.length_drop, List.length_cons]
          omega

/-- Where every frame takes something off, draining comes to an end. -/
theorem exists_drains (hpos : ∀ xs frame size, look xs = .found frame size → 0 < size)
    (start : ℕ) (xs : List α) : ∃ frames, Drains look start xs frames := by
  induction hn : xs.length using Nat.strong_induction_on generalizing start xs with
  | _ n ih =>
      cases hnext : nextAt look start xs with
      | mk found rest =>
          cases found with
          | none => exact ⟨[], .stop hnext⟩
          | some found =>
              obtain ⟨i, frame⟩ := found
              have hlt : rest.length < n := by
                have hlt := nextAt_length_lt hpos hnext
                omega
              obtain ⟨frames, hd⟩ := ih _ hlt (start + (xs.length - rest.length)) rest rfl
              exact ⟨_, .take hnext hd⟩

/-- A scanner never waits inside `ys`, and no frame that it finds there reaches beyond it. -/
structure Passed (look : List α → Verdict F) (ys xs : List α) : Prop where
  decided : ∀ i < ys.length, look ((ys ++ xs).drop i) ≠ .wait
  inside : ∀ i < ys.length, ∀ frame size, look ((ys ++ xs).drop i) = .found frame size →
    i + size ≤ ys.length

theorem Passed.drop (h : Passed look ys xs) {k : ℕ} (hk : k ≤ ys.length) :
    Passed look (ys.drop k) xs := by
  have hdrop : ∀ i, (ys.drop k ++ xs).drop i = (ys ++ xs).drop (k + i) := by
    intro i
    rw [← List.drop_append_of_le_length hk, List.drop_drop]
  constructor
  · intro i hi
    rw [List.length_drop] at hi
    rw [hdrop]
    exact h.decided (k + i) (by omega)
  · intro i hi frame size hl
    rw [List.length_drop] at hi ⊢
    rw [hdrop] at hl
    have hle := h.inside (k + i) (by omega) frame size hl
    omega

/-- Input that a scanner passes is used up: draining goes on with exactly what follows it. -/
theorem Drains.resume (hpos : ∀ xs frame size, look xs = .found frame size → 0 < size)
    (hp : Passed look ys xs) (h : Drains look start (ys ++ xs) frames) :
    ∃ earlier later, frames = earlier ++ later ∧ Drains look (start + ys.length) xs later := by
  induction hn : ys.length using Nat.strong_induction_on generalizing start ys frames with
  | _ n ih =>
      cases ys with
      | nil => exact ⟨[], frames, rfl, by rw [← hn]; exact h⟩
      | cons a ys =>
          cases hl : look (a :: (ys ++ xs)) with
          | skip =>
              have hrest : Passed look ys xs := hp.drop (Nat.le_add_left 1 ys.length)
              rw [List.length_cons] at hn
              obtain ⟨earlier, later, hf, hd⟩ :=
                ih ys.length (by omega) hrest (Drains.of_skip hl h) rfl
              exact ⟨earlier, later, hf, by rwa [← hn, Nat.add_comm ys.length, ← Nat.add_assoc]⟩
          | wait => exact absurd hl (hp.decided 0 (by simp))
          | found frame size =>
              have hsize := hpos _ _ _ hl
              have hle : size ≤ (a :: ys).length := by
                have hle := hp.inside 0 (by simp) frame size hl
                omega
              obtain ⟨later, rfl, hd⟩ := Drains.of_found hl h
              have hdrop : (a :: (ys ++ xs)).drop size = (a :: ys).drop size ++ xs := by
                rw [← List.cons_append, List.drop_append_of_le_length hle]
              have hlen : (a :: (ys ++ xs)).length - ((a :: (ys ++ xs)).drop size).length =
                  size := by
                rw [List.length_drop]
                rw [← List.cons_append, List.length_append]
                omega
              rw [hlen, hdrop] at hd
              have hshort : ((a :: ys).drop size).length < n := by
                rw [List.length_drop]
                omega
              obtain ⟨earlier, rest, rfl, hd'⟩ := ih _ hshort (hp.drop hle) hd rfl
              refine ⟨(start, frame) :: earlier, rest, rfl, ?_⟩
              rw [List.length_drop] at hd'
              have hpos' : start + size + ((a :: ys).length - size) = start + n := by omega
              rwa [hpos'] at hd'

end Drains

/-! ### Pushes -/

/-- Pushing one piece after the other onto `buffer`, and taking frames off after each, yields
`frames` and leaves `rest`. -/
inductive Fed (look : List α → Verdict F) : List α → List (List α) → List F → List α → Prop
  | done {buffer : List α} : Fed look buffer [] [] buffer
  | push {buffer piece kept rest : List α} {pieces : List (List α)} {frames more : List F}
      (hd : Drained look (buffer ++ piece) frames kept) (hf : Fed look kept pieces more rest) :
      Fed look buffer (piece :: pieces) (frames ++ more) rest

section Pushes

variable {buffer rest' : List α} {frames frames' more : List F} {pieces : List (List α)}

theorem Drained.unique (h : Drained look xs frames rest) (h' : Drained look xs frames' rest') :
    frames = frames' ∧ rest = rest' := by
  induction h generalizing frames' with
  | stop h =>
      cases h' with
      | stop h' => exact ⟨rfl, (Prod.mk.inj (h.symm.trans h')).2⟩
      | take h' _ => cases h.symm.trans h'
  | take h _ ih =>
      cases h' with
      | stop h' => cases h.symm.trans h'
      | take h' hd' =>
          obtain ⟨hframe, rfl⟩ := Prod.mk.inj (h.symm.trans h')
          obtain ⟨rfl, rfl⟩ := ih hd'
          exact ⟨by rw [Option.some.inj hframe], rfl⟩

theorem exists_drained (hpos : ∀ xs frame size, look xs = .found frame size → 0 < size)
    (xs : List α) : ∃ frames rest, Drained look xs frames rest := by
  obtain ⟨frames, hd⟩ := exists_drains hpos 0 xs
  exact ⟨_, hd.drained⟩

/-- What is left where no frame is complete stays as it is until more comes. -/
theorem next_of_next_none (h : next look xs = (none, rest)) : next look rest = (none, rest) := by
  induction xs with
  | nil =>
      cases h
      rfl
  | cons a xs ih =>
      rw [next] at h
      cases hl : look (a :: xs) with
      | skip =>
          simp only [hl] at h
          exact ih h
      | wait =>
          simp only [hl] at h
          cases h
          rw [next, hl]
      | found frame size =>
          simp only [hl] at h
          cases h

theorem Drained.settled (h : Drained look xs frames rest) : next look rest = (none, rest) := by
  induction h with
  | stop h => exact next_of_next_none h
  | take _ _ ih => exact ih

/-- Draining early takes the frames off that are taken off the whole, and no others. -/
theorem Drained.append (hs : Steady look) (h : Drained look xs frames rest)
    (hm : Drained look (rest ++ ys) more rest') :
    Drained look (xs ++ ys) (frames ++ more) rest' := by
  induction h with
  | @stop xs kept h =>
      have heq : next look (xs ++ ys) = next look (kept ++ ys) := next_append_of_none hs h
      cases hm with
      | stop hm => exact .stop (heq.trans hm)
      | take hm hd => exact .take (heq.trans hm) hd
  | take h _ ih => exact .take (next_append_of_some hs h) (ih hm)

theorem Fed.drained (hs : Steady look) (hb : next look buffer = (none, buffer))
    (h : Fed look buffer pieces frames rest) :
    Drained look (buffer ++ pieces.flatten) frames rest := by
  induction h with
  | done =>
      rw [List.flatten_nil, List.append_nil]
      exact .stop hb
  | push hd _ ih =>
      rw [List.flatten_cons, ← List.append_assoc]
      exact hd.append hs (ih hd.settled)

theorem exists_fed (hpos : ∀ xs frame size, look xs = .found frame size → 0 < size)
    (buffer : List α) (pieces : List (List α)) :
    ∃ frames rest, Fed look buffer pieces frames rest := by
  induction pieces generalizing buffer with
  | nil => exact ⟨[], buffer, .done⟩
  | cons piece pieces ih =>
      obtain ⟨frames, kept, hd⟩ := exists_drained hpos (buffer ++ piece)
      obtain ⟨more, rest, hf⟩ := ih kept
      exact ⟨frames ++ more, rest, .push hd hf⟩

/-- However a stream is cut into pieces, it yields what it yields in one piece. -/
theorem fed_iff_drained (hs : Steady look)
    (hpos : ∀ xs frame size, look xs = .found frame size → 0 < size) :
    Fed look [] pieces frames rest ↔ Drained look pieces.flatten frames rest := by
  constructor
  · exact Fed.drained hs rfl
  · intro h
    obtain ⟨frames', rest', hf⟩ := exists_fed hpos [] pieces
    obtain ⟨rfl, rfl⟩ := h.unique (Fed.drained hs rfl hf)
    exact hf

end Pushes

end Scanner
