import Aldis.Lib.Systemd

/-!
# The unit of the agent service

Setup writes a unit whose command line names the executable, every Moonraker and the
configuration file. Each of them is quoted unless it consists of plain characters only.
-/

namespace Aldis.Setup

open Text Systemd

def validUserName (user : Str) : Bool :=
  user ≠ [] && user.all fun c => isAsciiAlphanumeric c || c == '_' || c == '-'

/-- What a character is written as between double quotes. -/
def escapeChar : Char → Str
  | '\\' => ['\\', '\\']
  | '"' => ['\\', '"']
  | '%' => ['%', '%']
  | other => [other]

def escapeForSystemdExec (value : Str) : Str := value.flatMap escapeChar

def isPlain (c : Char) : Bool :=
  isAsciiAlphanumeric c || ['/', ':', '.', '_', '-', '@', '+', '=', ','].contains c

def isLineEnd (c : Char) : Bool := c == '\n' || c == '\r'

def execArgument (value : Str) : Str :=
  if value ≠ [] && value.all isPlain then value
  else
    '"' :: (escapeForSystemdExec (value.map fun c => if isLineEnd c then ' ' else c) ++ ['"'])

def argumentText (moonrakers : List Str) (config : Option Str) : Str :=
  let urls : Str := moonrakers.flatMap fun url => " --moonraker " ++ execArgument url
  match config with
  | some config => urls ++ " --config " ++ execArgument config
  | none => urls

def agentUnit (user exe : Str) (moonrakers : List Str) (config : Option Str) : Str :=
  "[Unit]\nDescription=aldis Moonraker agent\nAfter=moonraker.service\n" ++
    "Wants=moonraker.service\n\n[Service]\nType=simple\nUser=" ++ user ++
    "\nExecStart=\"" ++ escapeForSystemdExec exe ++ "\" agent" ++
    argumentText moonrakers config ++
    "\nRestart=always\nRestartSec=5\n\n[Install]\nWantedBy=multi-user.target\n"

/-- The arguments that the agent is meant to receive. -/
def arguments (moonrakers : List Str) (config : Option Str) : List Str :=
  "agent".toList :: moonrakers.flatMap (fun url => ["--moonraker".toList, url]) ++
    config.toList.flatMap fun config => ["--config".toList, config]

def NoLineEnd (value : Str) : Prop := ∀ c ∈ value, isLineEnd c = false

instance (value : Str) : Decidable (NoLineEnd value) :=
  List.decidableBAll (fun c => isLineEnd c = false) value

/-- The service starts the executable with exactly the arguments meant. -/
def Survives (user exe : Str) (moonrakers : List Str) (config : Option Str) : Prop :=
  ∀ specifier env, (assigned "ExecStart" (agentUnit user exe moonrakers config)).map
    (command specifier env) = [some ⟨exe, arguments moonrakers config⟩]

section Reading

variable {value user exe : Str} {moonrakers : List Str} {config : Option Str}

/-- A plain character means itself to systemd. -/
theorem isPlain_ordinary {c : Char} (h : isPlain c = true) :
    c ≠ '\\' ∧ isQuote c = false ∧ isSeparator c = false ∧ c ≠ '%' := by
  have hne {d : Char} (hd : isPlain d = false) : (c == d) = false := by
    rw [beq_eq_false_iff_ne]
    rintro rfl
    rw [h] at hd
    cases hd
  refine ⟨ne_of_beq_false (hne (by decide)), ?_, ?_, ne_of_beq_false (hne (by decide))⟩
  · rw [isQuote, hne (by decide), hne (by decide), Bool.or_self]
  · rw [isSeparator, hne (by decide), hne (by decide), hne (by decide), hne (by decide)]
    exact rfl

theorem run_escapeChar (c : Char) (words : List Str) (word : Str) :
    Splitter.run ⟨words, some word, some '"', false⟩ (escapeChar c) =
      some ⟨words, some (word ++ doubled [c]), some '"', false⟩ := by
  unfold escapeChar
  split
  · exact rfl
  · exact rfl
  · change some _ = some _
    rw [Splitter.push, Splitter.push, Option.getD_some, Option.getD_some, List.append_assoc]
    exact rfl
  · rename_i hbackslash hquote hpercent
    have hclose : some '"' ≠ some c := fun he => hquote (Option.some.inj he).symm
    have hdoubled : doubled [c] = [c] := doubled_eq_self (by simpa using Ne.symm hpercent)
    rw [Splitter.run, List.foldlM_cons, Splitter.step, if_neg Bool.false_ne_true,
      if_neg hbackslash, if_neg hclose, hdoubled]
    exact rfl

theorem doubled_flatMap (value : Str) : (value.flatMap fun c => doubled [c]) = doubled value := by
  unfold doubled
  simp only [List.flatMap_cons, List.flatMap_nil, List.append_nil]

theorem spells_escaped (value : Str) :
    Spells ('"' :: (escapeForSystemdExec value ++ ['"'])) (doubled value) := by
  rw [← doubled_flatMap]
  apply spells_quoted
  intro c _
  exact run_escapeChar c

theorem spells_execArgument (h : NoLineEnd value) :
    Spells (execArgument value) (doubled value) := by
  unfold execArgument
  by_cases hplain : (decide (value ≠ []) && value.all isPlain) = true
  · rw [if_pos hplain]
    rw [Bool.and_eq_true, decide_eq_true_iff, List.all_eq_true] at hplain
    have hpercent : '%' ∉ value := fun hm => (isPlain_ordinary (hplain.2 _ hm)).2.2.2 rfl
    rw [doubled_eq_self hpercent]
    apply spells_ordinary hplain.1
    intro c hc
    obtain ⟨hb, hq, hs, -⟩ := isPlain_ordinary (hplain.2 c hc)
    exact ⟨hb, hq, hs⟩
  · rw [if_neg hplain]
    have hkept : (value.map fun c => if isLineEnd c then ' ' else c) = value := by
      rw [List.map_congr_left, List.map_id']
      intro c hc
      rw [h c hc]
      exact if_neg Bool.false_ne_true
    rw [hkept]
    exact spells_escaped value

theorem option_spaced (option value : Str) (ho : execArgument option = option) :
    ([option, value].map execArgument).flatMap (' ' :: ·) =
      ' ' :: option ++ ' ' :: execArgument value := by
  simp only [List.map_cons, List.map_nil, List.flatMap_cons, List.flatMap_nil, List.append_nil, ho]

/-- Options are plain, so the text of the arguments is each argument written behind a space. -/
theorem argumentText_eq (moonrakers : List Str) (config : Option Str) :
    " agent".toList ++ argumentText moonrakers config =
      ((arguments moonrakers config).map execArgument).flatMap (' ' :: ·) := by
  have hagent : execArgument "agent".toList = "agent".toList := by decide
  have hmoonraker : execArgument "--moonraker".toList = "--moonraker".toList := by decide
  have hconfig : execArgument "--config".toList = "--config".toList := by decide
  have hurls : ((moonrakers.flatMap fun url => ["--moonraker".toList, url]).map
      execArgument).flatMap (' ' :: ·) =
        moonrakers.flatMap fun url => " --moonraker ".toList ++ execArgument url := by
    rw [List.map_flatMap, List.flatMap_assoc]
    apply congrArg (moonrakers.flatMap ·)
    funext url
    rw [option_spaced _ _ hmoonraker]
    exact rfl
  rw [arguments, List.map_append, List.flatMap_append, List.map_cons, List.flatMap_cons, hurls,
    hagent]
  unfold argumentText
  cases config with
  | none =>
      rw [List.append_assoc]
      exact congrArg _ (List.append_nil _).symm
  | some path =>
      change " agent".toList ++ (moonrakers.flatMap (fun url => " --moonraker ".toList ++
        execArgument url) ++ " --config ".toList ++ execArgument path) =
          _ ++ (([("--config".toList), path].map execArgument).flatMap (' ' :: ·))
      rw [option_spaced _ _ hconfig, List.append_assoc, List.append_assoc]
      exact rfl

theorem forall_mem_options {P : Str → Prop} {option : Str} (ho : P option) (values : List Str) :
    (∀ argument ∈ values.flatMap (fun value => [option, value]), P argument) ↔
      ∀ value ∈ values, P value := by
  rw [List.forall_mem_flatMap]
  simp only [List.forall_mem_cons, List.not_mem_nil, false_imp_iff, implies_true, and_true, ho,
    true_and]

/-- What holds of the options holds of all arguments if it holds of the values. -/
theorem forall_arguments {P : Str → Prop} (hagent : P "agent".toList)
    (hmoonraker : P "--moonraker".toList) (hconfig : P "--config".toList) :
    (∀ argument ∈ arguments moonrakers config, P argument) ↔
      ∀ value ∈ moonrakers ++ config.toList, P value := by
  rw [arguments, List.cons_append, List.forall_mem_cons, and_iff_right hagent,
    List.forall_mem_append, List.forall_mem_append, forall_mem_options hmoonraker,
    forall_mem_options hconfig]

theorem not_mem_of_noLineEnd (h : NoLineEnd value) : '\n' ∉ value := by
  intro hm
  exact absurd (h _ hm) (by decide)

theorem noLineEnd_escape (h : NoLineEnd value) : NoLineEnd (escapeForSystemdExec value) := by
  intro c hc
  obtain ⟨d, hd, hc⟩ := List.mem_flatMap.1 hc
  unfold escapeChar at hc
  split at hc
  · obtain rfl | rfl := List.mem_pair.1 hc <;> rfl
  · obtain rfl | rfl := List.mem_pair.1 hc <;> rfl
  · obtain rfl | rfl := List.mem_pair.1 hc <;> rfl
  · rw [List.mem_singleton.1 hc]
    exact h d hd

theorem noLineEnd_quoted (h : NoLineEnd value) :
    NoLineEnd ('"' :: (escapeForSystemdExec value ++ ['"'])) := by
  intro c hc
  rw [List.mem_cons, List.mem_append, List.mem_singleton] at hc
  rcases hc with rfl | hc | rfl
  · rfl
  · exact noLineEnd_escape h c hc
  · rfl

theorem noLineEnd_execArgument (value : Str) : NoLineEnd (execArgument value) := by
  unfold execArgument
  by_cases hplain : (decide (value ≠ []) && value.all isPlain) = true
  · rw [if_pos hplain]
    rw [Bool.and_eq_true, List.all_eq_true] at hplain
    intro c hc
    have hs := (isPlain_ordinary (hplain.2 c hc)).2.2.1
    rw [isSeparator, Bool.or_eq_false_iff, Bool.or_eq_false_iff] at hs
    rw [isLineEnd, hs.1.2, hs.2, Bool.or_self]
  · rw [if_neg hplain]
    apply noLineEnd_quoted
    intro c hc
    obtain ⟨d, -, rfl⟩ := List.mem_map.1 hc
    by_cases hd : isLineEnd d = true
    · rw [if_pos hd]
      exact rfl
    · rw [if_neg hd]
      exact Bool.not_eq_true _ ▸ hd

/-- The command line of the unit: the executable and each argument behind a space. -/
def commandLine (exe : Str) (moonrakers : List Str) (config : Option Str) : Str :=
  '"' :: (escapeForSystemdExec exe ++ ['"']) ++
    ((arguments moonrakers config).map execArgument).flatMap (' ' :: ·)

theorem not_mem_commandLine (he : NoLineEnd exe) :
    '\n' ∉ commandLine exe moonrakers config := by
  rw [commandLine, List.mem_append, not_or]
  refine ⟨not_mem_of_noLineEnd (noLineEnd_quoted he), ?_⟩
  intro hm
  obtain ⟨text, ht, hm⟩ := List.mem_flatMap.1 hm
  obtain ⟨argument, -, rfl⟩ := List.mem_map.1 ht
  rcases List.mem_cons.1 hm with hspace | hm
  · exact absurd hspace (by decide)
  · exact not_mem_of_noLineEnd (noLineEnd_execArgument argument) hm

/-- The lines of the unit in front of its command line. -/
def headLines (user : Str) : List Str :=
  ["[Unit]".toList, "Description=aldis Moonraker agent".toList, "After=moonraker.service".toList,
    "Wants=moonraker.service".toList, [], "[Service]".toList, "Type=simple".toList,
    "User=".toList ++ user]

def tailLines : List Str :=
  ["Restart=always".toList, "RestartSec=5".toList, [], "[Install]".toList,
    "WantedBy=multi-user.target".toList, []]

theorem quoted_inside (before start value option after : Str) :
    before ++ (start ++ ['"']) ++ value ++ ('"' :: option) ++ after =
      before ++ start ++ ('"' :: (value ++ ['"']) ++ (option ++ after)) := by
  simp only [List.append_assoc, List.cons_append, List.nil_append]

theorem agentUnit_eq (user exe : Str) (moonrakers : List Str) (config : Option Str) :
    agentUnit user exe moonrakers config =
      (("[Unit]\nDescription=aldis Moonraker agent\nAfter=moonraker.service\n".toList ++
        "Wants=moonraker.service\n\n[Service]\nType=simple\nUser=".toList) ++ user) ++
        "\nExecStart=".toList ++ commandLine exe moonrakers config ++
        "\nRestart=always\nRestartSec=5\n\n[Install]\nWantedBy=multi-user.target\n".toList := by
  have hopen : "\nExecStart=\"".toList = "\nExecStart=".toList ++ ['"'] := by decide
  have hclose : "\" agent".toList = '"' :: " agent".toList := by decide
  unfold agentUnit commandLine
  rw [← argumentText_eq, hopen, hclose, quoted_inside]

theorem splitOn_agentUnit (hu : NoLineEnd user) (he : NoLineEnd exe) :
    (agentUnit user exe moonrakers config).splitOn '\n' = headLines user ++
      ("ExecStart=".toList ++ commandLine exe moonrakers config) :: tailLines := by
  have hline : '\n' ∉ commandLine exe moonrakers config := not_mem_commandLine he
  rw [agentUnit_eq]
  generalize commandLine exe moonrakers config = line at hline ⊢
  have hhead : ("[Unit]\nDescription=aldis Moonraker agent\nAfter=moonraker.service\n".toList ++
      "Wants=moonraker.service\n\n[Service]\nType=simple\nUser=".toList).splitOn '\n' =
        (headLines []).dropLast ++ ["User=".toList] := by
    decide +kernel
  have hstart : ("\nExecStart=".toList).splitOn '\n' = [] :: ["ExecStart=".toList] := by decide
  have htail : ("\nRestart=always\nRestartSec=5\n\n[Install]\nWantedBy=multi-user.target\n".toList
      ).splitOn '\n' = [] :: tailLines := by
    decide +kernel
  have huser := splitOn_append hhead (List.splitOn_eq_singleton (not_mem_of_noLineEnd hu))
  have hname := splitOn_append huser hstart
  rw [List.append_cons, List.append_nil] at hname
  have hvalue := splitOn_append hname (List.splitOn_eq_singleton hline)
  rw [splitOn_append hvalue htail, List.append_nil]
  exact rfl

/-- The unit has one command line, which names the executable and the arguments. -/
theorem assigned_agentUnit (hu : NoLineEnd user) (he : NoLineEnd exe) :
    assigned "ExecStart" (agentUnit user exe moonrakers config) =
      [commandLine exe moonrakers config] := by
  have hhead : (headLines user).filterMap (stripPrefix ("ExecStart".toList ++ "=".toList)) = [] :=
    rfl
  have htail : tailLines.filterMap (stripPrefix ("ExecStart".toList ++ "=".toList)) = [] := by
    decide
  have hstart : stripPrefix ("ExecStart".toList ++ "=".toList)
      ("ExecStart=".toList ++ commandLine exe moonrakers config) =
        some (commandLine exe moonrakers config) := stripPrefix_eq_some_iff.2 rfl
  rw [assigned, splitOn_agentUnit hu he, List.filterMap_append, hhead,
    List.filterMap_cons_some hstart, htail]
  exact rfl

theorem command_commandLine (hv : ∀ value ∈ moonrakers ++ config.toList, NoLineEnd value)
    (specifier : Char → Option Str) (env : Environment) :
    command specifier env (commandLine exe moonrakers config) =
      some ⟨exe, (arguments moonrakers config).flatMap (expandWord env)⟩ := by
  have hspells : List.Forall₂ Spells ((arguments moonrakers config).map execArgument)
      ((arguments moonrakers config).map doubled) := by
    rw [List.forall₂_map_left_iff, List.forall₂_map_right_iff, List.forall₂_same]
    intro argument ha
    apply spells_execArgument
    exact (forall_arguments (by decide) (by decide) (by decide)).2 hv argument ha
  rw [command, commandLine, split_eq_some (spells_escaped exe) hspells]
  simp only [expandSpecifiers_doubled, List.flatMap_map]

theorem noLineEnd_of_validUserName (h : validUserName user = true) : NoLineEnd user := by
  rw [validUserName, Bool.and_eq_true, List.all_eq_true] at h
  intro c hc
  have hvalid := h.2 c hc
  rw [isLineEnd, Bool.or_eq_false_iff, beq_eq_false_iff_ne, beq_eq_false_iff_ne]
  constructor
  · rintro rfl
    exact absurd hvalid (by decide)
  · rintro rfl
    exact absurd hvalid (by decide)

/-- Whatever the values, the executable is started; with exactly the arguments meant when nothing
in them is taken for a variable. -/
theorem survives_iff (hu : validUserName user = true) (he : NoLineEnd exe)
    (hv : ∀ value ∈ moonrakers ++ config.toList, NoLineEnd value) :
    (∀ specifier env, ∃ received, (assigned "ExecStart"
      (agentUnit user exe moonrakers config)).map (command specifier env) =
        [some ⟨exe, received⟩]) ∧
      (Survives user exe moonrakers config ↔
        ∀ value ∈ moonrakers ++ config.toList, expands value = false) := by
  have hcommand (specifier : Char → Option Str) (env : Environment) :
      (assigned "ExecStart" (agentUnit user exe moonrakers config)).map (command specifier env) =
        [some ⟨exe, (arguments moonrakers config).flatMap (expandWord env)⟩] := by
    rw [assigned_agentUnit (noLineEnd_of_validUserName hu) he, List.map_cons,
      command_commandLine hv]
    exact rfl
  refine ⟨fun specifier env => ⟨_, hcommand specifier env⟩, ?_⟩
  rw [← forall_arguments (by decide) (by decide) (by decide), ← flatMap_expandWord_eq_self_iff,
    Survives]
  simp only [hcommand, List.singleton_inj, Option.some.injEq, Command.mk.injEq, true_and]
  constructor
  · intro h env
    exact h (fun _ => none) env
  · intro h _ env
    exact h env

theorem survives_iff_spaced : (∀ specifier env, ∃ received, (assigned "ExecStart"
    (agentUnit "pi" "/home/pi/aldis" ["http://127.0.0.1:7125"] (some "/etc/my 100%.toml"))).map
      (command specifier env) = [some ⟨"/home/pi/aldis", received⟩]) ∧
    (Survives "pi" "/home/pi/aldis" ["http://127.0.0.1:7125"] (some "/etc/my 100%.toml") ↔
      ∀ value ∈ ["http://127.0.0.1:7125".toList] ++
        (some "/etc/my 100%.toml".toList).toList, expands value = false) :=
  survives_iff (by decide) (by decide) (by decide)

/-- Two dollars in the path of the configuration arrive as one. -/
theorem not_survives_dollars : ¬ ∀ (user exe : Str) (moonrakers : List Str) (config : Option Str),
    validUserName user = true → NoLineEnd exe →
      (∀ value ∈ moonrakers ++ config.toList, NoLineEnd value) →
        Survives user exe moonrakers config := by
  intro h
  have hsurvives := h "pi" "/home/pi/aldis" ["http://127.0.0.1:7125"] (some "/etc/my$$.toml")
    (by decide) (by decide) (by decide)
  have hreceived : (assigned "ExecStart" (agentUnit "pi" "/home/pi/aldis"
      ["http://127.0.0.1:7125"] (some "/etc/my$$.toml"))).map (command (fun _ => none) unset) =
        [some ⟨"/home/pi/aldis", arguments ["http://127.0.0.1:7125"] (some "/etc/my$.toml")⟩] := by
    decide +kernel
  rw [hsurvives (fun _ => none) unset] at hreceived
  exact absurd hreceived (by decide)

end Reading

end Aldis.Setup
