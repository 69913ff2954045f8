import Mathlib.Data.List.TakeWhile
import Mathlib.Tactic

/-!
# Text as a list of characters

The string operations of the standard library that the model uses, on `List Char`. Lengths
are counted in UTF-8 bytes, numbers are parsed with their width's bound, and whitespace is
Unicode's `White_Space`.
-/

namespace Text

abbrev Str := List Char

instance : Coe String Str := ⟨String.toList⟩

def utf8 (s : Str) : List UInt8 := s.flatMap String.utf8EncodeChar

def len (s : Str) : ℕ := (utf8 s).length

def isWhitespace (c : Char) : Bool :=
  (9 ≤ c.toNat && c.toNat ≤ 13) || c.toNat == 0x20 || c.toNat == 0x85 || c.toNat == 0xa0 ||
    c.toNat == 0x1680 || (0x2000 ≤ c.toNat && c.toNat ≤ 0x200a) || c.toNat == 0x2028 ||
    c.toNat == 0x2029 || c.toNat == 0x202f || c.toNat == 0x205f || c.toNat == 0x3000

def isAsciiDigit (c : Char) : Bool := 48 ≤ c.toNat && c.toNat ≤ 57

def isAsciiAlphanumeric (c : Char) : Bool :=
  isAsciiDigit c || (65 ≤ c.toNat && c.toNat ≤ 90) || (97 ≤ c.toNat && c.toNat ≤ 122)

def isAsciiHexdigit (c : Char) : Bool :=
  isAsciiDigit c || (65 ≤ c.toNat && c.toNat ≤ 70) || (97 ≤ c.toNat && c.toNat ≤ 102)

def precedes : Str → Str → Bool
  | [], _ => true
  | _ :: _, [] => false
  | c :: s, d :: t => c.toNat < d.toNat || (c == d && precedes s t)

def stripPrefix (p s : Str) : Option Str :=
  if p.isPrefixOf s then some (s.drop p.length) else none

def stripSuffix (p s : Str) : Option Str :=
  if p.isSuffixOf s then some (s.take (s.length - p.length)) else none

/-- The parts of a text around the first occurrence of `pat`. -/
def splitOnce (pat : Str) : Str → Option (Str × Str)
  | [] => if pat = [] then some ([], []) else none
  | c :: s =>
    if pat.isPrefixOf (c :: s) then some ([], (c :: s).drop pat.length)
    else (splitOnce pat s).map (fun p => (c :: p.1, p.2))

/-- At most `n` parts of a text, the last of them holding everything left. -/
def splitn : ℕ → Char → Str → List Str
  | 0, _, _ => []
  | 1, _, s => [s]
  | n + 2, c, s => match splitOnce [c] s with
    | none => [s]
    | some (a, b) => a :: splitn (n + 1) c b

def trimStart (s : Str) : Str := s.dropWhile isWhitespace

def trim (s : Str) : Str := (trimStart (trimStart s).reverse).reverse

def splitWhitespace (s : Str) : List Str := (s.splitOnP isWhitespace).filter (· ≠ [])

/-- Lines end at `\n`, and a terminated one also loses a `\r` before it. -/
def lines (s : Str) : List Str :=
  let parts := s.splitOn '\n'
  let terminated := parts.dropLast.map (fun line => (stripSuffix ['\r'] line).getD line)
  terminated ++ (parts.getLast?.toList.filter (· ≠ []))

def toAsciiLowercase (s : Str) : Str := s.map Char.toLower

def eqIgnoreAsciiCase (s t : Str) : Bool := toAsciiLowercase s == toAsciiLowercase t

def contains (pat s : Str) : Bool := (splitOnce pat s).isSome

def digitsValue (s : Str) : ℕ := Nat.ofDigitChars 10 s 0

/-- Parses an unsigned decimal number below `bound`; a leading `+` is accepted. -/
def parseUnsigned (bound : ℕ) (s : Str) : Option ℕ :=
  let digits := (stripPrefix ['+'] s).getD s
  if digits ≠ [] ∧ digits.all isAsciiDigit ∧ digitsValue digits < bound then
    some (digitsValue digits)
  else none

def parseU64 : Str → Option ℕ := parseUnsigned (2 ^ 64)

def decimal (n : ℕ) : Str := Nat.toDigits 10 n

/-- Lowercase hexadecimal, as `{:x}` writes it. -/
def hex (n : ℕ) : Str := Nat.toDigits 16 n

/-- Hexadecimal after `0x`, with at least `width` digits. -/
def hex0x (width n : ℕ) : Str := "0x" ++ List.leftpad width '0' (hex n)

/-- The Latin-1 characters that `{:?}` writes by their numbers: controls, the no-break space and the
soft hyphen. All others, and all that lie beyond, are taken to be printable. -/
def isUnprintable (c : Char) : Bool :=
  decide (c.toNat < 32 ∨ 127 ≤ c.toNat ∧ c.toNat ≤ 160 ∨ c.toNat = 173)

def escapeDebug (c : Char) : Str :=
  match c with
  | '"' => "\\\""
  | '\\' => "\\\\"
  | '\n' => "\\n"
  | '\r' => "\\r"
  | '\t' => "\\t"
  | '\x00' => "\\0"
  | c => if isUnprintable c then "\\u\x7b" ++ hex c.toNat ++ "\x7d" else [c]

def hasLine (text line : Str) : Bool := (lines text).any fun l => trim l == line

/-- A quoted text, as `{:?}` writes it. -/
def quoted (s : Str) : Str := "\"" ++ s.flatMap escapeDebug ++ "\""

theorem utf8EncodeChar_length_pos (c : Char) : 0 < (String.utf8EncodeChar c).length := by
  rw [String.length_utf8EncodeChar]
  exact c.utf8Size_pos

@[simp] theorem utf8_append (s t : Str) : utf8 (s ++ t) = utf8 s ++ utf8 t := by
  simp [utf8]

@[simp] theorem len_append (s t : Str) : len (s ++ t) = len s + len t := by simp [len]

theorem len_eq_zero_iff {s : Str} : len s = 0 ↔ s = [] := by
  constructor
  · intro h
    cases s with
    | nil => rfl
    | cons c s =>
      have hc := utf8EncodeChar_length_pos c
      simp only [len, utf8, List.flatMap_cons, List.length_append] at h
      omega
  · rintro rfl; rfl

/-- An ASCII text is encoded as one byte a character. -/
theorem utf8_of_ascii {s : Str} (h : ∀ c ∈ s, c.toNat < 128) :
    utf8 s = s.map fun c => UInt8.ofNat c.toNat := by
  induction s with
  | nil => rfl
  | cons c s ih =>
    obtain ⟨hc, hs⟩ := List.forall_mem_cons.1 h
    have hsize : c.utf8Size = 1 := Char.utf8Size_eq_one_iff.2 (UInt32.le_iff_toNat_le.2 (by
      change c.toNat ≤ 127
      omega))
    have htail : utf8 s = _ := ih hs
    rw [utf8, List.flatMap_cons, String.utf8EncodeChar_eq_singleton hsize, List.map_cons]
    exact congrArg (_ :: ·) htail

/-- Every other character is encoded with a byte that is not ASCII. -/
theorem ascii_of_utf8 {s : Str} (h : ∀ b ∈ utf8 s, b.toNat < 128) : ∀ c ∈ s, c.toNat < 128 := by
  intro c hc
  by_contra hbig
  have hhigh : ∀ x : UInt8, 128 ≤ (x ||| 0x80).toNat := by
    intro x
    rw [UInt8.toNat_or]
    exact Nat.right_le_or
  have hne : c.utf8Size ≠ 1 := by
    rw [ne_eq, Char.utf8Size_eq_one_iff, UInt32.le_iff_toNat_le]
    change ¬ c.toNat ≤ 127
    omega
  have hlast : (c.val.toUInt8 &&& 0x3f ||| 0x80) ∈ String.utf8EncodeChar c := by
    rcases c.utf8Size_eq with h1 | h2 | h3 | h4
    · exact absurd h1 hne
    · rw [String.utf8EncodeChar_eq_cons_cons h2]
      simp
    · rw [String.utf8EncodeChar_eq_cons_cons_cons h3]
      simp
    · rw [String.utf8EncodeChar_eq_cons_cons_cons_cons h4]
      simp
  have hlt := h _ (List.mem_flatMap.2 ⟨c, hc, hlast⟩)
  have hge := hhigh (c.val.toUInt8 &&& 0x3f)
  omega

theorem eqIgnoreAsciiCase_iff {s t : Str} :
    eqIgnoreAsciiCase s t = true ↔ toAsciiLowercase s = toAsciiLowercase t := beq_iff_eq

/-- A prefix that is no shorter is the whole text. -/
theorem eq_of_prefix_of_len_le {s t : Str} (hp : s <+: t) (hl : len t ≤ len s) : s = t := by
  obtain ⟨r, rfl⟩ := hp
  have hr : r = [] := by
    rw [← len_eq_zero_iff]
    rw [len_append] at hl
    omega
  rw [hr, List.append_nil]

theorem len_le_len {s t : Str} (hp : s <+: t) : len s ≤ len t := by
  obtain ⟨r, rfl⟩ := hp
  rw [len_append]
  omega

theorem trim_eq_nil_iff {s : Str} : trim s = [] ↔ ∀ c ∈ s, isWhitespace c = true := by
  simp only [trim, trimStart, List.reverse_eq_nil_iff, List.dropWhile_eq_nil_iff, List.mem_reverse]
  constructor
  · intro h c hc
    by_contra hw
    rw [← List.takeWhile_append_dropWhile (p := isWhitespace) (l := s)] at hc
    exact hw (h c ((List.mem_append.1 hc).resolve_left fun ht => hw (List.mem_takeWhile_imp ht)))
  · exact fun h c hc => h c ((List.dropWhile_suffix _).subset hc)

theorem stripPrefix_eq_some_iff {p s t : Str} : stripPrefix p s = some t ↔ s = p ++ t := by
  unfold stripPrefix
  split_ifs with h
  · obtain ⟨r, rfl⟩ := List.isPrefixOf_iff_prefix.1 h
    simp [eq_comm]
  · simp only [false_iff]
    rintro rfl
    exact h (List.isPrefixOf_iff_prefix.2 ⟨t, rfl⟩)

theorem stripSuffix_eq_some_iff {p s t : Str} : stripSuffix p s = some t ↔ s = t ++ p := by
  unfold stripSuffix
  split_ifs with h
  · obtain ⟨r, rfl⟩ := List.isSuffixOf_iff_suffix.1 h
    simp [eq_comm]
  · simp only [false_iff]
    rintro rfl
    exact h (List.isSuffixOf_iff_suffix.2 ⟨t, rfl⟩)

theorem splitOnce_eq_some {pat s a b : Str} (h : splitOnce pat s = some (a, b)) :
    s = a ++ pat ++ b := by
  induction s generalizing a with
  | nil =>
    simp only [splitOnce] at h
    split_ifs at h with hp
    simp_all
  | cons c s ih =>
    simp only [splitOnce] at h
    split_ifs at h with hp
    · obtain ⟨r, hr⟩ := List.isPrefixOf_iff_prefix.1 hp
      simp only [← hr, List.drop_left, Option.some.injEq, Prod.mk.injEq] at h
      rw [← hr, ← h.1, ← h.2, List.nil_append]
    · obtain ⟨⟨a', b'⟩, hs, he⟩ := Option.map_eq_some_iff.1 h
      simp only [Prod.mk.injEq] at he
      obtain ⟨rfl, rfl⟩ := he
      rw [ih hs]
      rfl

theorem splitOnce_char_eq_none_iff {c : Char} {s : Str} : splitOnce [c] s = none ↔ c ∉ s := by
  induction s with
  | nil => simp [splitOnce]
  | cons d s ih =>
    by_cases hd : c = d
    · simp [splitOnce, hd]
    · simp [splitOnce, hd, ih]

theorem splitOnce_char_eq_some_iff {c : Char} {s a b : Str} :
    splitOnce [c] s = some (a, b) ↔ s = a ++ c :: b ∧ c ∉ a := by
  induction s generalizing a with
  | nil => simp [splitOnce]
  | cons d s ih =>
    by_cases hd : c = d
    · subst d
      simp only [splitOnce, List.isPrefixOf, BEq.rfl, Bool.true_and, if_true,
        List.length_singleton, List.drop_succ_cons, List.drop_zero, Option.some.injEq,
        Prod.mk.injEq]
      constructor
      · rintro ⟨rfl, rfl⟩; simp
      · rintro ⟨he, hn⟩
        cases a with
        | nil => simpa using he
        | cons e a => simp only [List.cons_append, List.cons.injEq] at he; simp [he.1] at hn
    · have hb : (c == d) = false := by simpa using hd
      simp only [splitOnce, List.isPrefixOf, hb, Bool.false_and, Bool.false_eq_true, if_false,
        Option.map_eq_some_iff, Prod.mk.injEq, Prod.exists]
      constructor
      · rintro ⟨a', b', hs, rfl, rfl⟩
        obtain ⟨rfl, hn⟩ := ih.1 hs
        exact ⟨rfl, by simp [hd, hn]⟩
      · rintro ⟨he, hn⟩
        cases a with
        | nil => exact absurd (List.cons.inj he).1.symm hd
        | cons e a =>
          obtain ⟨rfl, rfl⟩ := List.cons.inj he
          exact ⟨a, b, ih.2 ⟨rfl, fun h => hn (List.mem_cons_of_mem _ h)⟩, rfl, rfl⟩

/-- A separator that occurs in none of `a` splits no text before the end of `a`. -/
theorem append_cons_eq_append_cons {c : Char} {a b s t : Str} (hn : c ∉ a)
    (h : s ++ c :: t = a ++ c :: b) : s = a ∧ t = b ∨ ∃ r, s = a ++ c :: r ∧ b = r ++ c :: t := by
  rcases List.append_eq_append_iff.1 h with ⟨r, ha, ht⟩ | ⟨r, hs, hb⟩
  · cases r with
    | nil => exact .inl ⟨by simpa using ha.symm, by simpa using ht⟩
    | cons d r =>
      have hd : c = d := (List.cons.inj ht).1
      exact absurd (by simp [ha, hd]) hn
  · cases r with
    | nil => exact .inl ⟨by simpa using hs, by simpa using hb.symm⟩
    | cons d r =>
      obtain ⟨hd, hr⟩ := List.cons.inj hb
      exact .inr ⟨r, by rw [hs, hd], hr⟩

theorem digitsValue_append (s t : Str) :
    digitsValue (s ++ t) = digitsValue s * 10 ^ t.length + digitsValue t := by
  unfold digitsValue
  rw [Nat.ofDigitChars_append, Nat.ofDigitChars_eq_ofDigitChars_zero, mul_comm]

theorem digitsValue_decimal (n : ℕ) : digitsValue (decimal n) = n := Nat.ofDigitChars_ten_toDigits

theorem digitsValue_le_append (s t : Str) : digitsValue s ≤ digitsValue (s ++ t) := by
  rw [digitsValue_append]
  exact (Nat.le_mul_of_pos_right _ (by positivity)).trans (Nat.le_add_right _ _)

theorem parseUnsigned_lt {bound n : ℕ} {s : Str} (h : parseUnsigned bound s = some n) :
    n < bound := by
  simp only [parseUnsigned] at h
  split_ifs at h with hd
  obtain rfl := Option.some.inj h
  exact hd.2.2

/-- A longer numeral with the same beginning names a number at least as large. -/
theorem parseUnsigned_mono {bound m n : ℕ} {s t : Str} (hs : parseUnsigned bound s = some m)
    (ht : parseUnsigned bound (s ++ t) = some n) : m ≤ n := by
  simp only [parseUnsigned] at hs ht
  split_ifs at hs ht with h₁ h₂
  obtain rfl := Option.some.inj hs
  obtain rfl := Option.some.inj ht
  have hd : (stripPrefix ['+'] (s ++ t)).getD (s ++ t) = (stripPrefix ['+'] s).getD s ++ t := by
    cases s with
    | nil => simp [stripPrefix] at h₁
    | cons c s =>
      by_cases hc : '+' = c
      · subst c; simp [stripPrefix]
      · simp [stripPrefix, hc]
  rw [hd]
  exact digitsValue_le_append _ t

/-- No numeral contains a character other than its digits and a leading `+`. -/
theorem not_mem_of_parseUnsigned {bound n : ℕ} {s : Str} {c : Char}
    (h : parseUnsigned bound s = some n) (hc : isAsciiDigit c = false) (hp : c ≠ '+') : c ∉ s := by
  simp only [parseUnsigned] at h
  split_ifs at h with hd
  have hall : ∀ d ∈ (stripPrefix ['+'] s).getD s, isAsciiDigit d = true :=
    List.all_eq_true.1 hd.2.1
  intro hm
  cases s with
  | nil => simp at hm
  | cons e s =>
    by_cases he : '+' = e
    · subst e
      simp only [stripPrefix, List.isPrefixOf, BEq.rfl, Bool.true_and, if_true,
        List.length_singleton, List.drop_succ_cons, List.drop_zero, Option.getD_some] at hall
      rcases List.mem_cons.1 hm with rfl | hm
      · exact hp rfl
      · simp [hall c hm] at hc
    · simp only [stripPrefix, List.isPrefixOf, beq_eq_false_iff_ne.2 he, Bool.false_and,
        Bool.false_eq_true, if_false, Option.getD_none] at hall
      simp [hall c hm] at hc

theorem splitOnce_eq_none_iff {pat s : Str} : splitOnce pat s = none ↔ ¬ pat <:+: s := by
  induction s with
  | nil => simp [splitOnce]
  | cons c s ih =>
    by_cases hp : pat <+: c :: s
    · simp [splitOnce, hp, hp.isInfix]
    · simp [splitOnce, hp, ih, List.infix_cons_iff]

/-- A pattern found no earlier than at the end of `a` splits the text there. -/
theorem splitOnce_eq_some_of_first {pat a b : Str} (hne : pat ≠ [])
    (h : ∀ s t, a = s ++ t → t ≠ [] → ¬ pat <+: t ++ (pat ++ b)) :
    splitOnce pat (a ++ (pat ++ b)) = some (a, b) := by
  induction a with
  | nil =>
    obtain ⟨c, pat, rfl⟩ := List.exists_cons_of_ne_nil hne
    simp [splitOnce]
  | cons c a ih =>
    have hc : ¬ pat <+: c :: (a ++ (pat ++ b)) := h [] (c :: a) rfl (List.cons_ne_nil _ _)
    have hs := ih fun s t ht => h (c :: s) t (by rw [ht, List.cons_append])
    simp [splitOnce, hc, hs]

theorem decimal_ne_nil (n : ℕ) : decimal n ≠ [] := Nat.toDigits_ne_nil

theorem isAsciiDigit_of_mem_decimal {n : ℕ} {c : Char} (h : c ∈ decimal n) :
    isAsciiDigit c = true := by
  have hc : c.isDigit = true := Nat.isDigit_of_mem_toDigits (by omega) (by omega) h
  simp only [Char.isDigit, Bool.and_eq_true, decide_eq_true_eq, ge_iff_le,
    UInt32.le_iff_toNat_le] at hc
  simp only [isAsciiDigit, Bool.and_eq_true, decide_eq_true_eq]
  exact hc

theorem parseUnsigned_decimal {bound n : ℕ} (h : n < bound) :
    parseUnsigned bound (decimal n) = some n := by
  have hs : stripPrefix ['+'] (decimal n) = none := by
    rw [Option.eq_none_iff_forall_ne_some]
    intro t ht
    have hp : '+' ∈ decimal n := by
      rw [stripPrefix_eq_some_iff.1 ht]
      exact List.mem_append_left t (List.mem_singleton_self '+')
    exact absurd (isAsciiDigit_of_mem_decimal hp) (by decide)
  rw [parseUnsigned, hs, Option.getD_none, digitsValue_decimal, if_pos]
  exact ⟨decimal_ne_nil n, List.all_eq_true.2 fun c => isAsciiDigit_of_mem_decimal, h⟩

/-- Joining two texts joins the last field of the one with the first of the other. -/
theorem splitOn_append {c : Char} {s t a b : Str} {xs ys : List Str}
    (hs : s.splitOn c = xs ++ [a]) (ht : t.splitOn c = b :: ys) :
    (s ++ t).splitOn c = xs ++ (a ++ b) :: ys := by
  induction s generalizing xs a with
  | nil =>
    rw [List.splitOn_nil] at hs
    cases xs with
    | nil =>
      obtain rfl := List.singleton_inj.1 hs
      exact ht
    | cons x xs => exact absurd (List.cons.inj hs).2.symm (List.concat_ne_nil a xs)
  | cons d s ih =>
    rw [List.splitOn_cons_eq_if_modifyHead] at hs
    rw [List.cons_append, List.splitOn_cons_eq_if_modifyHead]
    by_cases hd : (d == c) = true
    · rw [if_pos hd] at hs ⊢
      cases xs with
      | nil => exact absurd (List.cons.inj hs).2 (List.splitOn_ne_nil c s)
      | cons x xs =>
        obtain ⟨rfl, hrest⟩ := List.cons.inj hs
        rw [ih hrest, List.cons_append]
    · rw [if_neg hd] at hs ⊢
      obtain ⟨x, rest, hx⟩ := List.exists_cons_of_ne_nil (List.splitOn_ne_nil c s)
      rw [hx, List.modifyHead_cons] at hs
      cases xs with
      | nil =>
        obtain ⟨rfl, rfl⟩ := List.cons.inj hs
        have hjoined : (s ++ t).splitOn c = [] ++ (x ++ b) :: ys := ih hx
        rw [hjoined]
        rfl
      | cons y xs =>
        obtain ⟨rfl, rfl⟩ := List.cons.inj hs
        have hjoined : (s ++ t).splitOn c = (x :: xs) ++ (a ++ b) :: ys := ih hx
        rw [hjoined]
        rfl

theorem precedes_trans {s t u : Str} (hst : precedes s t = true) (htu : precedes t u = true) :
    precedes s u = true := by
  induction s generalizing t u with
  | nil => rfl
  | cons c s ih =>
    cases t with
    | nil => cases hst
    | cons d t =>
      cases u with
      | nil => cases htu
      | cons e u =>
        simp only [precedes, Bool.or_eq_true, Bool.and_eq_true, beq_iff_eq,
          decide_eq_true_eq] at hst htu ⊢
        rcases hst with hcd | ⟨rfl, hst⟩ <;> rcases htu with hde | ⟨rfl, htu⟩
        · exact .inl (hcd.trans hde)
        · exact .inl hcd
        · exact .inl hde
        · exact .inr ⟨rfl, ih hst htu⟩

theorem precedes_total (s t : Str) : (precedes s t || precedes t s) = true := by
  induction s generalizing t with
  | nil => rfl
  | cons c s ih =>
    cases t with
    | nil => rfl
    | cons d t =>
      simp only [precedes, Bool.or_eq_true, Bool.and_eq_true, beq_iff_eq, decide_eq_true_eq]
      rcases Nat.lt_trichotomy c.toNat d.toNat with hlt | heq | hgt
      · exact .inl (.inl hlt)
      · obtain rfl : c = d := Char.toNat_inj.1 heq
        rcases Bool.or_eq_true _ _ ▸ ih t with hs | ht
        · exact .inl (.inr ⟨rfl, hs⟩)
        · exact .inr (.inr ⟨rfl, ht⟩)
      · exact .inr (.inl hgt)

/-- Sorting by name leaves no name before one that precedes it. -/
theorem pairwise_sortedBy {α : Type} (name : α → Str) (items : List α) :
    (items.mergeSort fun a b => precedes (name a) (name b)).Pairwise
      fun a b => precedes (name a) (name b) = true := by
  apply List.pairwise_mergeSort
  · intro a b c hab hbc
    exact precedes_trans hab hbc
  · intro a b
    exact precedes_total (name a) (name b)

section Enclosed

variable {c : Char} {q a b t : Str}

/-- Where a pattern closes with the character it opens with, no occurrence of it reaches from a
text into the next. -/
theorem prefix_of_enclosed_prefix (hq : c ∉ q) (ht : t ≠ []) {r : Str}
    (h : c :: q <+: t ++ c :: r) : c :: q <+: t := by
  obtain ⟨d, t, rfl⟩ := List.exists_cons_of_ne_nil ht
  obtain ⟨u, h⟩ := h
  obtain ⟨rfl, hu⟩ : c = d ∧ q ++ u = t ++ c :: r := by simpa using h
  rcases List.append_eq_append_iff.1 hu with ⟨v, rfl, -⟩ | ⟨v, rfl, hv⟩
  · exact ⟨v, rfl⟩
  · cases v with
    | nil => exact ⟨[], by simp⟩
    | cons e v =>
      obtain ⟨rfl, -⟩ := List.cons.inj hv
      exact absurd (by simp) hq

theorem splitOnce_enclosed (hq : c ∉ q) (ha : ¬ c :: q <:+: a) :
    splitOnce (c :: (q ++ [c])) (a ++ (c :: (q ++ [c]) ++ b)) = some (a, b) := by
  apply splitOnce_eq_some_of_first (List.cons_ne_nil _ _)
  rintro s t rfl ht hp
  have hshort : c :: q <+: t := prefix_of_enclosed_prefix hq ht
    (List.IsPrefix.trans ⟨[c], by simp⟩ hp)
  exact ha (hshort.isInfix.trans (List.suffix_append s t).isInfix)

theorem splitOnce_enclosed_eq_none (hq : c ∉ q) (ha : ¬ c :: q <:+: a) :
    splitOnce (c :: (q ++ [c])) (a ++ c :: q) = none := by
  rw [splitOnce_eq_none_iff]
  rintro ⟨s, r, h⟩
  have hl := congrArg List.length h
  rw [List.append_assoc] at h
  rcases List.append_eq_append_iff.1 h with ⟨t, rfl, ht⟩ | ⟨t, rfl, ht⟩
  · by_cases hn : t = []
    · subst t
      simp at hl
    · have hshort : c :: q <+: t := prefix_of_enclosed_prefix hq hn ⟨c :: r, by rw [← ht]; simp⟩
      exact ha (hshort.isInfix.trans (List.suffix_append s t).isInfix)
  · simp at hl
    omega

end Enclosed

end Text
