import Aldis.Lib.Text

/-!
# Reading a file as GNU make does

The rules by which make reads an included file: a backslash before a newline continues a line,
an unescaped `#` starts a comment even inside quotes, a line is a variable assignment if a name
is followed by an assignment operator, and otherwise a directive or a rule.
-/

namespace Make

open Text

def isBlank (c : Char) : Bool := c == ' ' || c == '\t'

/-- Whether a physical line ends in an odd number of backslashes. -/
def continues (line : Str) : Bool := (line.reverse.takeWhile (· == '\\')).length % 2 == 1

def joinLines : List Str → List Str
  | [] => []
  | line :: rest =>
    if continues line then match joinLines rest with
      | [] => [line.dropLast]
      | next :: more => (line.dropLast ++ ' ' :: next.dropWhile isBlank) :: more
    else line :: joinLines rest

def logicalLines (text : Str) : List Str := joinLines (text.splitOn '\n')

/-- The text before the first `#` that an even number of backslashes precede. -/
def uncomment : ℕ → Str → Str
  | _, [] => []
  | backslashes, c :: s =>
    if c == '#' && backslashes % 2 == 0 then []
    else c :: uncomment (if c == '\\' then backslashes + 1 else 0) s

inductive Flavor where
  | recursive
  | simple
  | conditional
  | append
  | shell
  deriving DecidableEq

def operator : Str → Option (Flavor × Str)
  | '=' :: value => some (.recursive, value)
  | ':' :: '=' :: value => some (.simple, value)
  | ':' :: ':' :: '=' :: value => some (.simple, value)
  | ':' :: ':' :: ':' :: '=' :: value => some (.simple, value)
  | '?' :: '=' :: value => some (.conditional, value)
  | '+' :: '=' :: value => some (.append, value)
  | '!' :: '=' :: value => some (.shell, value)
  | _ => none

/-- The name before the first assignment operator, the operator, and the text after it. -/
def splitAssignment : Str → Option (Str × Flavor × Str)
  | [] => none
  | c :: s => match operator (c :: s) with
    | some (flavor, value) => some ([], flavor, value)
    | none =>
      if c == ':' then none
      else if isBlank c then (operator (s.dropWhile isBlank)).map (fun p => ([], p))
      else (splitAssignment s).map (fun p => (c :: p.1, p.2))

def directives : List Str :=
  ["define", "endef", "undefine", "override", "export", "unexport", "private", "vpath", "include",
    "-include", "sinclude", "load", "-load", "ifdef", "ifndef", "ifeq", "ifneq", "else", "endif"]

inductive Statement where
  | blank
  | comment
  | assignment (flavor : Flavor) (name value : Str)
  | directive (word : Str)
  | recipe (text : Str)
  | rule (text : Str)
  deriving DecidableEq

def statement (line : Str) : Statement :=
  if line.head? = some '\t' then .recipe line
  else
    let text := (uncomment 0 line).dropWhile isBlank
    if text = [] then if '#' ∈ line then .comment else .blank
    else match splitAssignment text with
      | some (name, flavor, value) => .assignment flavor name (value.dropWhile isBlank)
      | none =>
        let word := text.takeWhile (fun c => !isBlank c)
        if word ∈ directives then .directive word else .rule text

/-- The statements make reads from a text. -/
def read (text : Str) : List Statement := (logicalLines text).map statement

def closing (opening : Char) : Char := if opening = '(' then ')' else '}'

/-- The text up to the delimiter that closes a reference, past the nested pairs, and the text
after it. -/
def reference (opening : Char) : ℕ → Str → Str × Str
  | _, [] => ([], [])
  | depth, c :: s =>
    if c = closing opening then
      if depth = 0 then ([], s) else (reference opening (depth - 1) s).map (c :: ·) id
    else if c = opening then (reference opening (depth + 1) s).map (c :: ·) id
    else (reference opening depth s).map (c :: ·) id

theorem reference_length_le (opening : Char) (depth : ℕ) (s : Str) :
    (reference opening depth s).1.length ≤ s.length ∧
      (reference opening depth s).2.length ≤ s.length := by
  induction s generalizing depth with
  | nil => exact ⟨le_rfl, le_rfl⟩
  | cons c s ih =>
    have hlater : ∀ k, ((reference opening k s).map (c :: ·) id).1.length ≤ s.length + 1 ∧
        ((reference opening k s).map (c :: ·) id).2.length ≤ s.length + 1 := by
      intro k
      exact ⟨Nat.succ_le_succ (ih k).1, Nat.le_succ_of_le (ih k).2⟩
    rw [reference, List.length_cons]
    split_ifs
    · exact ⟨Nat.zero_le _, Nat.le_succ _⟩
    · exact hlater _
    · exact hlater _
    · exact hlater _

/-- The text that a value stands for: a reference is replaced by what `lookup` gives for the name
it spells, `$$` by a dollar. -/
def expand (lookup : Str → Str) : Str → Str
  | [] => []
  | [c] => [c]
  | c :: d :: s =>
    if c ≠ '$' then c :: expand lookup (d :: s)
    else if d = '$' then '$' :: expand lookup s
    else if d = '(' ∨ d = '{' then
      have := reference_length_le d 0 s
      lookup (expand lookup (reference d 0 s).1) ++ expand lookup (reference d 0 s).2
    else lookup [d] ++ expand lookup s
termination_by s => s.length
decreasing_by all_goals simp only [List.length_cons]; omega

theorem continues_eq_false {line : Str} (h : '\\' ∉ line) : continues line = false := by
  have hl : line.reverse.takeWhile (· == '\\') = [] := by
    rw [List.takeWhile_eq_nil_iff]
    intro hpos hc
    have hm : line.reverse[0] ∈ line := List.mem_reverse.1 (List.getElem_mem hpos)
    exact h (beq_iff_eq.1 hc ▸ hm)
  rw [continues, hl]
  rfl

theorem joinLines_eq_self {lines : List Str} (h : ∀ line ∈ lines, continues line = false) :
    joinLines lines = lines := by
  induction lines with
  | nil => rfl
  | cons line rest ih =>
    rw [joinLines, h line (List.mem_cons_self ..), ih fun l hl => h l (List.mem_cons_of_mem _ hl)]
    rfl

/-- A text in which no physical line continues is read line by line. -/
theorem read_eq_map {text : Str} (h : ∀ line ∈ text.splitOn '\n', continues line = false) :
    read text = (text.splitOn '\n').map statement := by
  rw [read, logicalLines, joinLines_eq_self h]

theorem uncomment_eq_takeWhile {s : Str} (h : '\\' ∉ s) :
    uncomment 0 s = s.takeWhile (· ≠ '#') := by
  induction s with
  | nil => rfl
  | cons c s ih =>
    have hc : c ≠ '\\' := fun hc => h (hc ▸ List.mem_cons_self ..)
    have hs := ih fun hm => h (List.mem_cons_of_mem _ hm)
    by_cases hh : c = '#'
    · simp [uncomment, hh]
    · simp [uncomment, hc, hh, hs]

theorem expand_eq_self (lookup : Str → Str) {s : Str} (h : '$' ∉ s) : expand lookup s = s := by
  induction s with
  | nil => rw [expand]
  | cons c s ih =>
    rw [List.mem_cons, not_or] at h
    cases s with
    | nil => rw [expand]
    | cons d s => rw [expand, if_pos (Ne.symm h.1), ih h.2]

/-- Characters that are part of a name wherever they stand. -/
def isNameChar (c : Char) : Bool := !isBlank c && !(c ∈ ['=', ':', '?', '+', '!'])

theorem operator_eq_none {c : Char} {s : Str} (h : isNameChar c = true) :
    operator (c :: s) = none := by
  have hc : c ≠ '=' ∧ c ≠ ':' ∧ c ≠ '?' ∧ c ≠ '+' ∧ c ≠ '!' := by
    simp only [isNameChar, Bool.and_eq_true, Bool.not_eq_true', decide_eq_false_iff_not,
      List.mem_cons, List.not_mem_nil, or_false, not_or] at h
    exact h.2
  unfold operator
  split <;> simp_all

theorem splitAssignment_name {name : Str} (value : Str) (h : name.all isNameChar = true) :
    splitAssignment (name ++ '=' :: value) = some (name, .recursive, value) := by
  induction name with
  | nil => rfl
  | cons c name ih =>
    rw [List.all_cons, Bool.and_eq_true] at h
    have hc := h.1
    simp only [isNameChar, Bool.and_eq_true, Bool.not_eq_true', decide_eq_false_iff_not,
      List.mem_cons, List.not_mem_nil, or_false, not_or] at hc
    rw [List.cons_append, splitAssignment, operator_eq_none h.1]
    simp [hc.1, hc.2.2.1, ih h.2]

end Make
