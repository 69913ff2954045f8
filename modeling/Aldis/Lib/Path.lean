import Aldis.Lib.Text

/-!
# Unix paths

The operations of `std::path` that the model uses, on paths as text. As there, a path is read
without its repeated and trailing separators and without its `.` components.
-/

namespace Text

abbrev Path := Str

namespace Path

/-- A reversed path without the separators and the `.` components that end it. -/
def trimmed : Str → Str
  | '.' :: '/' :: rest => trimmed ('/' :: rest)
  | '/' :: c :: rest => trimmed (c :: rest)
  | path => path

/-- Appends a component; an absolute one replaces the path. -/
def join (path component : Path) : Path :=
  if component.head? = some '/' then component
  else if path = [] then component
  else if path.getLast? = some '/' then path ++ component
  else path ++ '/' :: component

/-- The last component, reversed, and what stands before it. -/
def splitLast (path : Path) : Str × Str :=
  let path := trimmed path.reverse
  (path.takeWhile (· ≠ '/'), path.dropWhile (· ≠ '/'))

def parent (path : Path) : Option Path :=
  match splitLast path with
  | ([], _) => none
  | (_, before) => some (trimmed before).reverse

def fileName (path : Path) : Option Str :=
  let name := (splitLast path).1.reverse
  if name = [] ∨ name = "." ∨ name = ".." then none else some name

/-- The last dot of a name separates an extension from a nonempty stem. -/
def splitExtension (name : Str) : Str × Option Str :=
  let extension := name.reverse.takeWhile (· ≠ '.')
  let stem := (name.reverse.drop (extension.length + 1)).reverse
  if stem = [] then (name, none) else (stem, some extension.reverse)

def extension (path : Path) : Option Str := (fileName path).bind fun name => (splitExtension name).2

def withExtension (path : Path) (extension : Str) : Path :=
  match fileName path with
  | none => path
  | some name =>
    (splitLast path).2.reverse ++ (splitExtension name).1 ++
      (if extension = [] then [] else '.' :: extension)

def withFileName (path : Path) (name : Str) : Path :=
  match fileName path with
  | none => join path name
  | some _ => join ((parent path).getD []) name

inductive Component where
  | rootDir
  | curDir
  | parentDir
  | normal (name : Str)
  deriving DecidableEq

def Component.isNormal : Component → Bool
  | normal _ => true
  | _ => false

def component (name : Str) : List Component :=
  if name = [] ∨ name = "." then []
  else if name = ".." then [.parentDir]
  else [.normal name]

/-- A `.` counts only where the path starts with it. -/
def components (path : Path) : List Component :=
  match path.splitOn '/' with
  | [] => []
  | first :: rest =>
    (if path.head? = some '/' then [.rootDir]
      else if first = "." then [.curDir] else component first) ++ rest.flatMap component

theorem exists_names_of_isNormal {parts : List Component}
    (h : parts.all Component.isNormal = true) : ∃ names : List Str, parts = names.map .normal := by
  induction parts with
  | nil => exact ⟨[], rfl⟩
  | cons part rest ih =>
      rw [List.all_cons, Bool.and_eq_true] at h
      obtain ⟨names, hnames⟩ := ih h.2
      cases part with
      | normal name => exact ⟨name :: names, by rw [hnames, List.map_cons]⟩
      | rootDir | curDir | parentDir => exact absurd h.1 Bool.false_ne_true

theorem join_of_relative {base path : Path} (hb : base ≠ []) (hl : base.getLast? ≠ some '/')
    (hp : path.head? ≠ some '/') : join base path = base ++ '/' :: path := by
  rw [join, if_neg hp, if_neg hb, if_neg hl]

theorem getLast?_join {base path : Path} (hp : path ≠ []) :
    (join base path).getLast? = path.getLast? := by
  obtain ⟨c, rest, rfl⟩ := List.exists_cons_of_ne_nil hp
  unfold join
  split_ifs with hr hb hl
  · rfl
  · rfl
  · rw [List.getLast?_append, List.getLast?_eq_some_getLast hp]
    rfl
  · rw [List.getLast?_append, List.getLast?_cons_cons, List.getLast?_eq_some_getLast hp]
    rfl

theorem components_append {base : Path} (hb : base ≠ []) (path : Path) :
    components (base ++ '/' :: path) = components base ++ (path.splitOn '/').flatMap component := by
  have hh : (base ++ '/' :: path).head? = base.head? := by
    obtain ⟨c, rest, rfl⟩ := List.exists_cons_of_ne_nil hb
    rfl
  unfold components
  rw [List.splitOn_append_cons_self, hh]
  cases hs : base.splitOn '/' with
  | nil => exact absurd hs (List.splitOn_ne_nil '/' base)
  | cons first rest => simp only [List.cons_append, List.flatMap_append, List.append_assoc]

/-- A path of proper names only stays below the directory it is joined to. -/
theorem components_join {base path : Path} (hb : base ≠ []) (hl : base.getLast? ≠ some '/')
    (hn : (components path).all Component.isNormal = true) :
    components (join base path) = components base ++ components path := by
  have hparts : (path.splitOn '/').flatMap component = components path ∧
      path.head? ≠ some '/' := by
    unfold components at hn ⊢
    cases hs : path.splitOn '/' with
    | nil => exact absurd hs (List.splitOn_ne_nil '/' path)
    | cons first rest =>
        simp only [hs] at hn ⊢
        by_cases hr : path.head? = some '/'
        · simp [hr, Component.isNormal] at hn
        · by_cases hf : first = "."
          · simp [hr, hf, Component.isNormal] at hn
          · rw [if_neg hr, if_neg hf]
            exact ⟨List.flatMap_cons, hr⟩
  rw [join_of_relative hb hl hparts.2, components_append hb, hparts.1]

end Path
end Text
