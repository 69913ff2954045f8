import Aldis.Kconfig

/-!
# What make reads from an accepted Kconfig

Every line the validator accepts is read by make on its own, as a blank line, a comment or a
plain assignment of a `CONFIG_` symbol.
-/

namespace Aldis.Kconfig

open Text

def ConfigSymbol (name : Str) : Prop :=
  ∃ rest : Str, name = "CONFIG_" ++ rest ∧ rest ≠ [] ∧ ∀ c ∈ rest, isSymbolChar c = true

/-- A quoted, nonempty path component over letters, digits, underscores and hyphens. -/
def QuotedComponent (value : Str) : Prop :=
  ∃ directory : Str, value = "\"" ++ directory ++ "\"" ∧ directory ≠ [] ∧
    ∀ c ∈ directory, isDirectoryChar c = true

/-- The only statements that may reach make. -/
inductive Plain : Make.Statement → Prop
  | blank : Plain .blank
  | comment : Plain .comment
  | assignment {name value : Str} (hn : ConfigSymbol name) (hd : '$' ∉ value)
      (hb : name = "CONFIG_BOARD_DIRECTORY" → QuotedComponent value) :
      Plain (.assignment .recursive name value)

theorem unquoted_eq_some_iff {value inner : Str} :
    unquoted value = some inner ↔ value = "\"" ++ inner ++ "\"" := by
  simp only [unquoted, Option.bind_eq_some_iff, stripPrefix_eq_some_iff, stripSuffix_eq_some_iff]
  constructor
  · rintro ⟨rest, rfl, rfl⟩; simp
  · rintro rfl; exact ⟨inner ++ "\"", by simp, rfl⟩

theorem configSymbol_of_isSymbol {name : Str} (h : isSymbol name = true) : ConfigSymbol name := by
  unfold isSymbol at h
  split at h
  · rename_i rest hs
    simp only [Bool.and_eq_true, decide_eq_true_eq, ne_eq] at h
    exact ⟨rest, stripPrefix_eq_some_iff.1 hs, h.1, List.all_eq_true.1 h.2⟩
  · cases h

theorem quotedComponent_of_isBoardDirectory {value : Str} (h : isBoardDirectory value = true) :
    QuotedComponent value := by
  unfold isBoardDirectory at h
  split at h
  · rename_i directory hs
    simp only [Bool.and_eq_true, decide_eq_true_eq, ne_eq] at h
    exact ⟨directory, unquoted_eq_some_iff.1 hs, h.1, List.all_eq_true.1 h.2⟩
  · cases h

/-- Printable characters that make gives no meaning of their own in a value, `#` apart. -/
def isValueChar (c : Char) : Bool := c ≠ '\\' && c ≠ '$'

theorem isValueChar_of {p : Char → Bool} {c : Char} (hbackslash : p '\\' = false)
    (hdollar : p '$' = false) (h : p c = true) : isValueChar c = true := by
  by_contra hv
  simp only [isValueChar, Bool.and_eq_true, decide_eq_true_eq, not_and_or, not_not] at hv
  rcases hv with rfl | rfl
  · rw [hbackslash] at h
    cases h
  · rw [hdollar] at h
    cases h

theorem isValueChar_of_isAsciiHexdigit {c : Char} (h : isAsciiHexdigit c = true) :
    isValueChar c = true :=
  isValueChar_of (by decide) (by decide) h

theorem isValueChar_of_isAsciiDigit {c : Char} (h : isAsciiDigit c = true) :
    isValueChar c = true :=
  isValueChar_of_isAsciiHexdigit (by simp [isAsciiHexdigit, h])

theorem isValueChar_of_isStringChar {c : Char} (h : isStringChar c = true) :
    isValueChar c = true :=
  isValueChar_of (by decide) (by decide) h

theorem isNameChar_of_isSymbolChar {c : Char} (h : isSymbolChar c = true) :
    Make.isNameChar c = true ∧ isValueChar c = true ∧ c ≠ '#' := by
  by_cases hc : c ∈ [' ', '\t', '=', ':', '?', '+', '!', '\\', '$', '#']
  · simp only [List.mem_cons, List.not_mem_nil, or_false] at hc
    rcases hc with rfl | rfl | rfl | rfl | rfl | rfl | rfl | rfl | rfl | rfl <;>
      exact absurd h (by decide)
  · simp only [List.mem_cons, List.not_mem_nil, or_false, not_or] at hc
    simp [Make.isNameChar, Make.isBlank, isValueChar, hc]

theorem isValueChar_of_isNumber {value : Str} (h : isNumber value = true) :
    ∀ c ∈ value, isValueChar c = true := by
  unfold isNumber at h
  split at h
  · rename_i hex hs
    obtain rfl := stripPrefix_eq_some_iff.1 hs
    rw [Bool.and_eq_true, List.all_eq_true] at h
    intro c hc
    rcases List.mem_append.1 hc with hc | hc
    · exact List.all_eq_true.1 (by decide : ("0x" : Str).all isValueChar = true) c hc
    · exact isValueChar_of_isAsciiHexdigit (h.2 c hc)
  · rw [Bool.and_eq_true, List.all_eq_true] at h
    intro c hc
    cases hs : stripPrefix "-" value with
    | none =>
      rw [hs] at h
      exact isValueChar_of_isAsciiDigit (h.2 c hc)
    | some digits =>
      rw [hs] at h
      obtain rfl := stripPrefix_eq_some_iff.1 hs
      rcases List.mem_append.1 hc with hc | hc
      · exact List.all_eq_true.1 (by decide : ("-" : Str).all isValueChar = true) c hc
      · exact isValueChar_of_isAsciiDigit (h.2 c hc)

theorem isValueChar_of_isValue {value : Str} (h : isValue value = true) :
    ∀ c ∈ value, isValueChar c = true := by
  unfold isValue at h
  rw [Bool.or_eq_true, Bool.or_eq_true, List.contains_iff_mem] at h
  rcases h with (h | h) | h
  · have hall : (["y", "n", "m"] : List Str).all (·.all isValueChar) = true := by decide
    exact List.all_eq_true.1 (List.all_eq_true.1 hall value h)
  · exact isValueChar_of_isNumber h
  · unfold isQuotedString at h
    split at h
    · rename_i inner hs
      obtain rfl := unquoted_eq_some_iff.1 hs
      rw [Bool.and_eq_true, List.all_eq_true] at h
      intro c hc
      rcases List.mem_append.1 hc with hc | hc
      · rcases List.mem_append.1 hc with hc | hc
        · exact List.all_eq_true.1 (by decide : ("\"" : Str).all isValueChar = true) c hc
        · exact isValueChar_of_isStringChar (h.2 c hc)
      · exact List.all_eq_true.1 (by decide : ("\"" : Str).all isValueChar = true) c hc
    · cases h

theorem symbol_chars {name : Str} (h : ConfigSymbol name) :
    ∀ c ∈ name, isSymbolChar c = true := by
  obtain ⟨rest, rfl, _, hr⟩ := h
  intro c hc
  rcases List.mem_append.1 hc with hc | hc
  · exact List.all_eq_true.1 (by decide : ("CONFIG_" : Str).all isSymbolChar = true) c hc
  · exact hr c hc

/-- A blank line holds only spaces, since the other whitespace is not printable. -/
theorem statement_blank {line : Str} (hp : line.all isPrintable = true) (ht : trim line = []) :
    Make.continues line = false ∧ Make.statement line = .blank := by
  have hs : ∀ c ∈ line, c = ' ' := by
    intro c hc
    have hw := trim_eq_nil_iff.1 ht c hc
    have hr := List.all_eq_true.1 hp c hc
    simp only [isPrintable, isWhitespace, Bool.and_eq_true, Bool.or_eq_true, decide_eq_true_eq,
      beq_iff_eq] at hw hr
    have hn : c.toNat = ' '.toNat := by
      change c.toNat = 32
      omega
    exact Char.toNat_inj.1 hn
  have hb : '\\' ∉ line := fun h => absurd (hs _ h) (by decide)
  have hh : '#' ∉ line := fun h => absurd (hs _ h) (by decide)
  have ht : line.head? ≠ some '\t' := by
    intro h
    exact absurd (hs _ (List.mem_of_mem_head? h)) (by decide)
  have hd : (Make.uncomment 0 line).dropWhile Make.isBlank = [] := by
    rw [Make.uncomment_eq_takeWhile hb, List.dropWhile_eq_nil_iff]
    intro c hc
    rw [hs c (List.takeWhile_subset _ hc)]
    decide
  refine ⟨Make.continues_eq_false hb, ?_⟩
  rw [Make.statement, if_neg ht]
  simp only [hd, if_true, hh, if_false]

theorem statement_comment {line : Str} (hh : line.head? = some '#') (hb : '\\' ∉ line) :
    Make.continues line = false ∧ Make.statement line = .comment := by
  obtain ⟨rest, rfl⟩ : ∃ rest, line = '#' :: rest := by
    cases line with
    | nil => cases hh
    | cons c rest => exact ⟨rest, by rw [Option.some.inj hh]⟩
  refine ⟨Make.continues_eq_false hb, ?_⟩
  simp [Make.statement, Make.uncomment]

/-- An accepted assignment is read as one: the symbol, `=`, and the value up to any `#`. -/
theorem statement_assignment {name value : Str} (hn : ConfigSymbol name)
    (hv : ∀ c ∈ value, isValueChar c = true) :
    Make.continues (name ++ '=' :: value) = false ∧
      Make.statement (name ++ '=' :: value) = .assignment .recursive name
        ((value.takeWhile (· ≠ '#')).dropWhile Make.isBlank) := by
  have hc := fun c hc => isNameChar_of_isSymbolChar (symbol_chars hn c hc)
  have hb : '\\' ∉ name ++ '=' :: value := by
    intro h
    rcases List.mem_append.1 h with h | h
    · exact absurd (hc _ h).2.1 (by decide)
    · rcases List.mem_cons.1 h with h | h
      · exact absurd h (by decide)
      · exact absurd (hv _ h) (by decide)
  have hu : Make.uncomment 0 (name ++ '=' :: value) =
      name ++ '=' :: value.takeWhile (· ≠ '#') := by
    rw [Make.uncomment_eq_takeWhile hb, List.takeWhile_append_of_pos]
    · rfl
    · intro c h
      exact decide_eq_true (hc c h).2.2
  obtain ⟨rest, rfl, -, -⟩ := id hn
  refine ⟨Make.continues_eq_false hb, ?_⟩
  have hs := Make.splitAssignment_name (value.takeWhile (· ≠ '#'))
    (List.all_eq_true.2 fun c h => (hc c h).1)
  have hd : ("CONFIG_" ++ rest ++ '=' :: value.takeWhile (· ≠ '#')).dropWhile Make.isBlank =
      "CONFIG_" ++ rest ++ '=' :: value.takeWhile (· ≠ '#') := rfl
  rw [Make.statement, hu, if_neg (by simp), hd, if_neg (by simp), hs]

theorem checkLine_plain {line : Str} (h : checkLine line = .ok ()) :
    Make.continues line = false ∧ Plain (Make.statement line) := by
  unfold checkLine at h
  split_ifs at h with hl hp ht hc hb
  · obtain ⟨hcont, hs⟩ := statement_blank (by simpa using hp) ht
    exact ⟨hcont, hs ▸ .blank⟩
  · obtain ⟨hcont, hs⟩ := statement_comment hc hb
    exact ⟨hcont, hs ▸ .comment⟩
  · split at h
    · cases h
    · rename_i name value hs
      split_ifs at h with hn hv hd
      obtain ⟨rfl, -⟩ := splitOnce_char_eq_some_iff.1 hs
      have hname := configSymbol_of_isSymbol hn
      have hchars := isValueChar_of_isValue hv
      obtain ⟨hcont, hst⟩ := statement_assignment hname hchars
      refine ⟨hcont, hst ▸ .assignment hname ?_ ?_⟩
      · intro hm
        have hm := List.takeWhile_subset _ ((List.dropWhile_suffix _).subset hm)
        exact absurd (hchars _ hm) (by decide)
      · rintro rfl
        obtain ⟨directory, rfl, hne, hdir⟩ := quotedComponent_of_isBoardDirectory
          (not_not.1 fun hb => hd ⟨rfl, hb⟩)
        refine ⟨directory, ?_, hne, hdir⟩
        have hall : ∀ c ∈ "\"" ++ directory ++ "\"", c ≠ '#' := by
          intro c hc he
          subst he
          simp only [List.mem_append] at hc
          rcases hc with (hc | hc) | hc
          · exact absurd hc (by decide)
          · exact absurd (hdir _ hc) (by decide)
          · exact absurd hc (by decide)
        rw [List.takeWhile_eq_self_iff.2 fun c hc => decide_eq_true (hall c hc)]
        rfl

theorem checkLines_eq_ok_iff {index : ℕ} {lines : List Str} :
    checkLines index lines = .ok () ↔ ∀ line ∈ lines, checkLine line = .ok () := by
  induction lines generalizing index with
  | nil => simp [checkLines]
  | cons line rest ih =>
    rw [checkLines, List.forall_mem_cons, ← ih]
    cases h : checkLine line with
    | ok => exact (and_iff_right rfl).symm
    | error reason => simp

/-- Make reads an accepted Kconfig one line at a time, and each line as a plain statement. -/
theorem read_plain {kconfig : Str} (h : validate kconfig = .ok ()) :
    (∀ line ∈ kconfig.splitOn '\n', Make.continues line = false) ∧
      ∀ statement ∈ Make.read kconfig, Plain statement := by
  unfold validate at h
  split_ifs at h
  have hl := checkLines_eq_ok_iff.1 h
  have hc := fun line hm => (checkLine_plain (hl line hm)).1
  refine ⟨hc, ?_⟩
  rw [Make.read_eq_map hc]
  intro statement hs
  obtain ⟨line, hm, rfl⟩ := List.mem_map.1 hs
  exact (checkLine_plain (hl line hm)).2

def Assigns (line name value : Str) : Prop :=
  line.head? ≠ some '#' ∧ splitOnce "=" line = some (name, value)

/-- Whatever the other variables are, make gives each symbol the literal on its line. -/
def ReachesMake (kconfig : Str) : Prop :=
  ∀ line ∈ kconfig.splitOn '\n', ∀ name value, Assigns line name value →
    ∀ lookup, ∃ assigned, .assignment .recursive name assigned ∈ Make.read kconfig ∧
      Make.statement line = .assignment .recursive name assigned ∧
      Make.expand lookup assigned = value

theorem of_assigns {line name value : Str} (h : checkLine line = .ok ())
    (ha : Assigns line name value) :
    line = name ++ '=' :: value ∧ ConfigSymbol name ∧ isValue value = true := by
  obtain ⟨hcomment, hs⟩ := ha
  obtain ⟨rfl, -⟩ := splitOnce_char_eq_some_iff.1 hs
  unfold checkLine at h
  split_ifs at h with hl hp ht
  · have hblank := trim_eq_nil_iff.1 ht '=' (List.mem_append_right name List.mem_cons_self)
    exact absurd hblank (by decide)
  · rw [hs] at h
    dsimp only at h
    split_ifs at h with hn hv hd
    exact ⟨rfl, configSymbol_of_isSymbol hn, hv⟩

/-- No accepted literal starts with a blank. -/
theorem dropWhile_isBlank_of_isValue {value : Str} (h : isValue value = true) :
    value.dropWhile Make.isBlank = value := by
  unfold isValue at h
  rw [Bool.or_eq_true, Bool.or_eq_true, List.contains_iff_mem] at h
  rcases h with (h | h) | h
  · simp only [List.mem_cons, List.not_mem_nil, or_false] at h
    rcases h with rfl | rfl | rfl
    all_goals exact rfl
  · unfold isNumber at h
    split at h
    · rename_i hex hs
      rw [stripPrefix_eq_some_iff.1 hs]
      exact rfl
    · rw [Bool.and_eq_true, List.all_eq_true] at h
      cases hs : stripPrefix "-" value with
      | some digits =>
          rw [stripPrefix_eq_some_iff.1 hs]
          exact rfl
      | none =>
          rw [hs] at h
          cases value with
          | nil => exact rfl
          | cons c value =>
              have hc : isAsciiDigit c = true := h.2 c List.mem_cons_self
              apply List.dropWhile_cons_of_neg
              intro hb
              have hcases : c = ' ' ∨ c = '\t' := by simpa [Make.isBlank] using hb
              rcases hcases with rfl | rfl
              all_goals exact absurd hc (by decide)
  · unfold isQuotedString at h
    split at h
    · rename_i inner hs
      rw [unquoted_eq_some_iff.1 hs]
      exact rfl
    · cases h

/-- What make assigns for an accepted line, once it is expanded. -/
theorem expand_assigned {value : Str} (h : isValue value = true) (lookup : Str → Str) :
    Make.expand lookup ((value.takeWhile (· ≠ '#')).dropWhile Make.isBlank) =
      (value.takeWhile (· ≠ '#')).dropWhile Make.isBlank := by
  apply Make.expand_eq_self
  intro hm
  have hm := List.takeWhile_subset _ ((List.dropWhile_suffix _).subset hm)
  exact absurd (isValueChar_of_isValue h _ hm) (by decide)

theorem assigned_eq_iff {value : Str} (h : isValue value = true) :
    (value.takeWhile (· ≠ '#')).dropWhile Make.isBlank = value ↔ '#' ∉ value := by
  constructor
  · intro he hm
    have hle := (List.dropWhile_suffix (l := value.takeWhile (· ≠ '#')) Make.isBlank).length_le
    rw [he] at hle
    have hwhole : value.takeWhile (· ≠ '#') = value :=
      (List.takeWhile_prefix _).eq_of_length_le hle
    have hneg := List.takeWhile_eq_self_iff.1 hwhole '#' hm
    exact absurd hneg (by decide)
  · intro hm
    have hwhole : value.takeWhile (· ≠ '#') = value := by
      rw [List.takeWhile_eq_self_iff]
      intro c hc
      exact decide_eq_true fun he => hm (he ▸ hc)
    rw [hwhole, dropWhile_isBlank_of_isValue h]

/-- A comment sign in a quoted value ends the value for make, which ignores the quotes; every other
accepted literal reaches it whole. -/
theorem reachesMake_iff {kconfig : Str} (h : validate kconfig = .ok ()) :
    ReachesMake kconfig ↔
      ∀ line ∈ kconfig.splitOn '\n', ∀ name value, Assigns line name value → '#' ∉ value := by
  have hread := Make.read_eq_map (read_plain h).1
  unfold validate at h
  split_ifs at h with hsize
  have hl := checkLines_eq_ok_iff.1 h
  have hstatement : ∀ line ∈ kconfig.splitOn '\n', ∀ name value, Assigns line name value →
      isValue value = true ∧ Make.statement line = .assignment .recursive name
        ((value.takeWhile (· ≠ '#')).dropWhile Make.isBlank) := by
    intro line hm name value ha
    obtain ⟨rfl, hn, hv⟩ := of_assigns (hl line hm) ha
    exact ⟨hv, (statement_assignment hn (isValueChar_of_isValue hv)).2⟩
  constructor
  · intro hreach line hm name value ha
    obtain ⟨hv, hs⟩ := hstatement line hm name value ha
    obtain ⟨assigned, -, hs', he⟩ := hreach line hm name value ha id
    rw [hs] at hs'
    cases hs'
    rw [expand_assigned hv] at he
    exact (assigned_eq_iff hv).1 he
  · intro hno line hm name value ha lookup
    obtain ⟨hv, hs⟩ := hstatement line hm name value ha
    refine ⟨_, ?_, hs, ?_⟩
    · rw [hread, ← hs]
      exact List.mem_map_of_mem hm
    · rw [expand_assigned hv, assigned_eq_iff hv]
      exact hno line hm name value ha

theorem reachesMake_iff_initial_pins :
    ReachesMake "CONFIG_INITIAL_PINS=\"!PA1,PB2\"" ↔
      ∀ line ∈ ("CONFIG_INITIAL_PINS=\"!PA1,PB2\"" : Str).splitOn '\n', ∀ name value,
        Assigns line name value → '#' ∉ value :=
  reachesMake_iff (by decide)

/-- The product name that is accepted as one Klipper's Kconfig writes loses its end in make, and
with it the closing quote. -/
theorem not_reachesMake_usb_product :
    validate "CONFIG_USB_PRODUCT=\"Voron 2.4 (Trident) #1\"" = .ok () ∧
      ¬ ReachesMake "CONFIG_USB_PRODUCT=\"Voron 2.4 (Trident) #1\"" := by
  refine ⟨by decide +kernel, ?_⟩
  intro h
  have hread : Make.statement "CONFIG_USB_PRODUCT=\"Voron 2.4 (Trident) #1\"" =
      .assignment .recursive "CONFIG_USB_PRODUCT" "\"Voron 2.4 (Trident) " := by decide +kernel
  obtain ⟨assigned, -, hs, he⟩ := h "CONFIG_USB_PRODUCT=\"Voron 2.4 (Trident) #1\""
    (by decide +kernel) "CONFIG_USB_PRODUCT" "\"Voron 2.4 (Trident) #1\""
    ⟨by decide, by decide +kernel⟩ id
  rw [hread, Make.Statement.assignment.injEq] at hs
  rw [← hs.2.2, Make.expand_eq_self id (by decide)] at he
  exact absurd he (by decide)

end Aldis.Kconfig
