import Aldis.Lib.Text

/-!
# Command lines of a service unit

How systemd reads the command line of a service: it is split at whitespace into words, where
quotes and backslashes are taken away; then `%` specifiers are replaced in every word, and when
the command is run, variables of the environment in every word but the first.
-/

namespace Systemd

open Text

def isSeparator (c : Char) : Bool := c == ' ' || c == '\t' || c == '\n' || c == '\r'

def isQuote (c : Char) : Bool := c == '"' || c == '\x27'

/-- What a backslash and `c` stand for. The numeric escapes are not read. -/
def unescape (c : Char) : Option Char :=
  ([('a', '\x07'), ('b', '\x08'), ('f', '\x0c'), ('n', '\n'), ('r', '\r'), ('t', '\t'),
    ('v', '\x0b'), ('s', ' '), ('\\', '\\'), ('"', '"'), ('\x27', '\x27')] :
      List (Char × Char)).lookup c

/-- The words split off so far, the word being read, and the quote it is inside of. -/
structure Splitter where
  words : List Str
  word : Option Str
  quote : Option Char
  escaped : Bool

namespace Splitter

def push (s : Splitter) (c : Char) : Splitter :=
  { s with word := some (s.word.getD [] ++ [c]), escaped := false }

def step (s : Splitter) (c : Char) : Option Splitter :=
  if s.escaped then (unescape c).map s.push
  else if c = '\\' then some { s with word := some (s.word.getD []), escaped := true }
  else if s.quote = some c then some { s with quote := none }
  else if s.quote.isSome then some (s.push c)
  else if isQuote c then some { s with word := some (s.word.getD []), quote := some c }
  else if isSeparator c then some { s with words := s.words ++ s.word.toList, word := none }
  else some (s.push c)

def finish (s : Splitter) : Option (List Str) :=
  if s.escaped || s.quote.isSome then none else some (s.words ++ s.word.toList)

def run (s : Splitter) (text : Str) : Option Splitter := text.foldlM step s

end Splitter

def split (line : Str) : Option (List Str) :=
  (Splitter.run ⟨[], none, none, false⟩ line).bind Splitter.finish

/-- Replaces every specifier. One that stands for nothing is kept, `%%` is a percent sign. -/
def expandSpecifiers (specifier : Char → Option Str) : Str → Str
  | '%' :: '%' :: rest => '%' :: expandSpecifiers specifier rest
  | '%' :: c :: rest => (specifier c).getD ['%', c] ++ expandSpecifiers specifier rest
  | c :: rest => c :: expandSpecifiers specifier rest
  | [] => []

/-- The values of variables, and the words that such a value is split into. -/
structure Environment where
  value : Str → Option Str
  split : Str → List Str

def isVariable : Str → Bool
  | '$' :: '$' :: _ | '$' :: '{' :: _ => false
  | '$' :: _ => true
  | _ => false

/-- Replaces every variable that stands in braces, behind a dollar. Two dollars are one. The name
of the variable is read first if there is one; a colon is taken to be part of it. -/
def expandBraces (value : Str → Option Str) : Option Str → Str → Str
  | none, '$' :: '$' :: rest => '$' :: expandBraces value none rest
  | none, '$' :: '{' :: rest => expandBraces value (some []) rest
  | none, c :: rest => c :: expandBraces value none rest
  | none, [] => []
  | some name, '}' :: rest => (value name).getD [] ++ expandBraces value none rest
  | some name, c :: rest => expandBraces value (some (name ++ [c])) rest
  | some name, [] => '$' :: '{' :: name

def expandWord (env : Environment) (word : Str) : List Str :=
  if isVariable word then ((env.value word.tail).map env.split).getD []
  else [expandBraces env.value none word]

structure Command where
  path : Str
  arguments : List Str
  deriving DecidableEq

/-- The command a line stands for. The path of the program may not be a variable. -/
def command (specifier : Char → Option Str) (env : Environment) (line : Str) : Option Command :=
  match split line with
  | some (path :: arguments) => some
      { path := expandSpecifiers specifier path
        arguments := arguments.flatMap fun word =>
          expandWord env (expandSpecifiers specifier word) }
  | _ => none

def assigned (setting unit : Str) : List Str :=
  (unit.splitOn '\n').filterMap (stripPrefix (setting ++ "="))

section Splitting

variable {words : List Str} {word text : Str} {c : Char}

open Splitter

/-- A text that is read as one word, from where no word has been begun. -/
def Spells (text word : Str) : Prop :=
  ∀ words, run ⟨words, none, none, false⟩ text = some ⟨words, some word, none, false⟩

theorem run_append (s : Splitter) (t u : Str) : s.run (t ++ u) = (s.run t).bind (·.run u) :=
  List.foldlM_append

theorem run_ordinary {words : List Str} {w : Option Str} (hne : word ≠ [])
    (h : ∀ c ∈ word, c ≠ '\\' ∧ isQuote c = false ∧ isSeparator c = false) :
    run ⟨words, w, none, false⟩ word = some ⟨words, some (w.getD [] ++ word), none, false⟩ := by
  induction word generalizing w with
  | nil => exact absurd rfl hne
  | cons c word ih =>
      obtain ⟨⟨hb, hq, hs⟩, hrest⟩ := List.forall_mem_cons.1 h
      have hstep : step ⟨words, w, none, false⟩ c =
          some ⟨words, some (w.getD [] ++ [c]), none, false⟩ := by
        simp [step, hb, hq, hs, push]
      rw [run, List.foldlM_cons, hstep]
      change run ⟨words, some (w.getD [] ++ [c]), none, false⟩ word = _
      cases word with
      | nil => exact rfl
      | cons d word =>
          rw [ih (List.cons_ne_nil d word) hrest, Option.getD_some, List.append_assoc]
          exact rfl

theorem spells_ordinary (hne : word ≠ [])
    (h : ∀ c ∈ word, c ≠ '\\' ∧ isQuote c = false ∧ isSeparator c = false) :
    Spells word word := by
  intro words
  exact run_ordinary hne h

/-- What stands between double quotes, where every character of a word is written alike. -/
theorem spells_quoted {α : Type} {write read : α → Str} (items : List α)
    (h : ∀ a ∈ items, ∀ words word, run ⟨words, some word, some '"', false⟩ (write a) =
      some ⟨words, some (word ++ read a), some '"', false⟩) :
    Spells ('"' :: (items.flatMap write ++ ['"'])) (items.flatMap read) := by
  intro words
  have hbody : ∀ word, run ⟨words, some word, some '"', false⟩ (items.flatMap write) =
      some ⟨words, some (word ++ items.flatMap read), some '"', false⟩ := by
    induction items with
    | nil =>
        intro word
        rw [List.flatMap_nil, List.flatMap_nil, List.append_nil]
        exact rfl
    | cons a items ih =>
        obtain ⟨ha, hrest⟩ := List.forall_mem_cons.1 h
        intro word
        rw [List.flatMap_cons, List.flatMap_cons, run_append, ha, Option.bind_some, ih hrest,
          List.append_assoc]
  change run ⟨words, some [], some '"', false⟩ (items.flatMap write ++ ['"']) = _
  rw [run_append, hbody, Option.bind_some, List.nil_append]
  exact rfl

theorem finish_run {texts later : List Str} (h : List.Forall₂ Spells texts later) :
    (run ⟨words, some word, none, false⟩ (texts.flatMap (' ' :: ·))).bind finish =
      some (words ++ word :: later) := by
  induction h generalizing words word with
  | nil => exact rfl
  | @cons text next texts later ht _ ih =>
      rw [List.flatMap_cons, List.cons_append, ← List.singleton_append, run_append]
      change ((run ⟨words ++ [word], none, none, false⟩ _).bind finish) = _
      rw [run_append, ht, Option.bind_some, ih, List.append_assoc]
      exact rfl

/-- Texts with a space between them are read as their words. -/
theorem split_eq_some {texts later : List Str} (hw : Spells text word)
    (h : List.Forall₂ Spells texts later) :
    split (text ++ texts.flatMap (' ' :: ·)) = some (word :: later) := by
  rw [split, run_append, hw, Option.bind_some, finish_run h]
  exact rfl

end Splitting

section Expanding

variable {specifier : Char → Option Str} {env : Environment} {value : Str → Option Str}
  {name word text : Str} {words : List Str}

/-- A text with every percent sign written twice. -/
def doubled (text : Str) : Str := text.flatMap fun c => if c = '%' then ['%', '%'] else [c]

theorem expandSpecifiers_doubled (specifier : Char → Option Str) (text : Str) :
    expandSpecifiers specifier (doubled text) = text := by
  induction text with
  | nil => rfl
  | cons c text ih =>
      rw [doubled, List.flatMap_cons, ← doubled]
      by_cases hc : c = '%'
      · rw [if_pos hc, hc]
        exact congrArg ('%' :: ·) ih
      · rw [if_neg hc]
        change expandSpecifiers specifier (c :: doubled text) = c :: text
        rw [expandSpecifiers]
        · rw [ih]
        · intro rest hpercent
          exact absurd hpercent hc
        · intro d rest hpercent
          exact absurd hpercent hc

theorem doubled_eq_self (h : '%' ∉ text) : doubled text = text := by
  induction text with
  | nil => rfl
  | cons c text ih =>
      rw [List.mem_cons, not_or] at h
      rw [doubled, List.flatMap_cons, if_neg (Ne.symm h.1), ← doubled, ih h.2]
      exact rfl

/-- Whether the first `$$` or `${` of a text is replaced: a `${` only with a `}` behind it. -/
def references : Str → Bool
  | '$' :: '$' :: _ => true
  | '$' :: '{' :: rest => rest.contains '}'
  | _ :: rest => references rest
  | [] => false

/-- Whether something in a word is replaced when a command is run. -/
def expands (word : Str) : Bool := isVariable word || references word

theorem expandBraces_of_not_mem (h : '}' ∉ text) :
    expandBraces value (some name) text = '$' :: '{' :: (name ++ text) := by
  induction text generalizing name with
  | nil =>
      rw [List.append_nil]
      exact rfl
  | cons c text ih =>
      rw [List.mem_cons, not_or] at h
      rw [expandBraces, ih h.2, List.append_assoc]
      · exact rfl
      · exact Ne.symm h.1

theorem expandBraces_eq_self (h : references text = false) :
    expandBraces value none text = text := by
  induction text using references.induct with
  | case1 rest => cases h
  | case2 rest =>
      have hclosed : '}' ∉ rest := by
        rw [← List.contains_iff_mem, Bool.not_eq_true]
        exact h
      change expandBraces value (some []) rest = _
      rw [expandBraces_of_not_mem hclosed, List.nil_append]
  | case3 c rest hdollar hbrace ih =>
      rw [references] at h
      · rw [expandBraces, ih h]
        · exact hdollar
        · exact hbrace
      · exact hdollar
      · exact hbrace
  | case4 => rfl

theorem expandWord_eq_self (h : expands word = false) : expandWord env word = [word] := by
  rw [expands, Bool.or_eq_false_iff] at h
  rw [expandWord, h.1, expandBraces_eq_self h.2]
  exact if_neg Bool.false_ne_true

def unset : Environment := ⟨fun _ => none, fun _ => []⟩

theorem expandBraces_length_le (name : Option Str) (text : Str) :
    (expandBraces unset.value name text).length ≤
      (name.elim 0 fun name => name.length + 2) + text.length := by
  induction name, text using expandBraces.induct with
  | case1 rest ih =>
      rw [expandBraces, List.length_cons, List.length_cons, List.length_cons]
      simp only [Option.elim_none] at ih ⊢
      omega
  | case2 rest ih =>
      rw [expandBraces, List.length_cons, List.length_cons]
      simp only [Option.elim_none, Option.elim_some, List.length_nil] at ih ⊢
      omega
  | case3 c rest hdollar hbrace ih =>
      rw [expandBraces, List.length_cons, List.length_cons]
      · simp only [Option.elim_none] at ih ⊢
        omega
      · exact hdollar
      · exact hbrace
  | case4 => exact Nat.le_refl 0
  | case5 name rest ih =>
      rw [expandBraces, List.length_append, List.length_cons]
      simp only [unset, Option.getD_none, List.length_nil, Option.elim_none,
        Option.elim_some] at ih ⊢
      omega
  | case6 name c rest hclosing ih =>
      rw [expandBraces, List.length_cons]
      · simp only [Option.elim_some, List.length_append, List.length_singleton] at ih ⊢
        omega
      · exact hclosing
  | case7 name =>
      rw [expandBraces]
      simp only [Option.elim_some, List.length_cons, List.length_nil]
      omega

theorem expandBraces_closed_length_lt (h : '}' ∈ text) :
    (expandBraces unset.value (some name) text).length < text.length := by
  induction text generalizing name with
  | nil => cases h
  | cons c text ih =>
      by_cases hc : c = '}'
      · rw [hc, expandBraces, List.length_append, List.length_cons]
        have hle := expandBraces_length_le none text
        simp only [unset, Option.getD_none, List.length_nil, Option.elim_none] at hle ⊢
        omega
      · rw [expandBraces, List.length_cons]
        · have hlt := @ih (name ++ [c]) ((List.mem_cons.1 h).resolve_left (Ne.symm hc))
          omega
        · exact hc

/-- Without any variable, a text that is not left alone gets shorter. -/
theorem expandBraces_length_lt (h : references text = true) :
    (expandBraces unset.value none text).length < text.length := by
  induction text using references.induct with
  | case1 rest =>
      have hle := expandBraces_length_le none rest
      rw [expandBraces, List.length_cons, List.length_cons, List.length_cons]
      simp only [Option.elim_none] at hle
      omega
  | case2 rest =>
      have hlt : (expandBraces unset.value (some []) rest).length < rest.length :=
        expandBraces_closed_length_lt (List.contains_iff_mem.1 h)
      rw [expandBraces, List.length_cons, List.length_cons]
      omega
  | case3 c rest hdollar hbrace ih =>
      rw [references] at h
      · rw [expandBraces, List.length_cons, List.length_cons]
        · have hlt := ih h
          omega
        · exact hdollar
        · exact hbrace
      · exact hdollar
      · exact hbrace
  | case4 => cases h

theorem expandWord_unset_length_le (word : Str) : (expandWord unset word).length ≤ 1 := by
  unfold expandWord
  split_ifs
  · exact Nat.zero_le 1
  · exact Nat.le_refl 1

theorem expandWord_unset_ne (h : expands word = true) : expandWord unset word ≠ [word] := by
  unfold expandWord
  intro he
  cases hv : isVariable word with
  | true =>
      rw [hv] at he
      cases he
  | false =>
      rw [expands, hv, Bool.false_or] at h
      rw [hv, if_neg Bool.false_ne_true, List.singleton_inj] at he
      have hlt := expandBraces_length_lt h
      rw [he] at hlt
      omega

theorem flatMap_unset_length_le (words : List Str) :
    (words.flatMap (expandWord unset)).length ≤ words.length := by
  induction words with
  | nil => exact Nat.le_refl 0
  | cons word words ih =>
      have hle := expandWord_unset_length_le word
      rw [List.flatMap_cons, List.length_append, List.length_cons]
      omega

/-- Words stay as they are in every environment when nothing in any of them is replaced. -/
theorem flatMap_expandWord_eq_self_iff :
    (∀ env, words.flatMap (expandWord env) = words) ↔ ∀ word ∈ words, expands word = false := by
  constructor
  · intro h
    have hunset := h unset
    clear h
    induction words with
    | nil => exact fun word hw => absurd hw List.not_mem_nil
    | cons word words ih =>
        rw [List.flatMap_cons] at hunset
        have hle := flatMap_unset_length_le words
        have hone := expandWord_unset_length_le word
        -- no word is lost, because the rest cannot make up for it
        have hword : (expandWord unset word).length = 1 := by
          have hlength := congrArg List.length hunset
          rw [List.length_append, List.length_cons] at hlength
          omega
        obtain ⟨first, hfirst⟩ := List.length_eq_one_iff.1 hword
        rw [hfirst, List.singleton_append, List.cons.injEq] at hunset
        rw [List.forall_mem_cons]
        refine ⟨?_, ih hunset.2⟩
        rw [← Bool.not_eq_true]
        intro he
        apply expandWord_unset_ne he
        rw [hfirst, hunset.1]
  · intro h env
    induction words with
    | nil => rfl
    | cons word words ih =>
        obtain ⟨hword, hrest⟩ := List.forall_mem_cons.1 h
        rw [List.flatMap_cons, expandWord_eq_self hword, ih hrest, List.singleton_append]

end Expanding

end Systemd
