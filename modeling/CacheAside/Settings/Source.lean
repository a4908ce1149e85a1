import CacheAside.Misfit
import CacheAside.Text.Case

/-! # Where settings come from

A field is given by an override or by a variable of the environment. Overrides go before the environment,
and of several names of a field the first one counts; what stands behind is not even looked at. Some
overrides give no field but steer how the environment is read, see `Manner`. -/

namespace CacheAside
set_option autoImplicit false

/-- The names of a field: its own, and the aliases that go before it. -/
structure FieldNames where
  own : String
  aliases : List String

/-- All names, the first of which counts first. -/
def FieldNames.all (n : FieldNames) : List String := n.aliases ++ [n.own]

/-- The name that a field goes by where it is given under none of its names as they are written. -/
def FieldNames.first (n : FieldNames) : String := n.all.headD n.own

/-- Whether two names are the same but for the case of their letters. -/
def sameName (a b : String) : Bool := Text.lowercase a = Text.lowercase b

/-! ## The environment -/

/-- Why the environment cannot hold a variable. -/
inductive VariableFault where
  | notText
  /-- The name or the text holds a character that ends texts. -/
  | endsEarly
  /-- The name holds the sign that ends names. -/
  | nameEndsEarly
  | unnamed
deriving DecidableEq, Repr

namespace VariableFault

def message : VariableFault → String
  | .notText => "no text"
  | .endsEarly => "embedded null byte"
  | .nameEndsEarly => "illegal environment variable name"
  | .unnamed => "no name"

/-- What is wrong with a variable, if anything is. -/
def of? (name : String) (v : Json) : Option VariableFault :=
  match v with
  | .str text =>
    if '\x00' ∈ name.toList ∨ '\x00' ∈ text.toList then some .endsEarly
    else if '=' ∈ name.toList then some .nameEndsEarly
    else if name = "" then some .unnamed
    else none
  | _ => some .notText

end VariableFault

/-- An environment of named values; the first variable that it cannot hold is told. -/
def environmentOf (values : List (String × Json)) : Except VariableFault (List (String × String)) :=
  values.mapM fun (name, v) =>
    match VariableFault.of? name v, v.text? with
    | none, some text => .ok (name, text)
    | some fault, _ => .error fault
    | none, none => .error .notText

/-! ## The manner of reading -/

/-- How the environment is read. -/
structure Manner where
  /-- Whether the case of letters counts in names of variables. -/
  exact : Bool
  /-- What the variable under the own name of a field begins with. -/
  ownStart : String
  /-- What the variables under the names of a field with aliases begin with. -/
  aliasStart : String
  /-- Whether variables with an empty text are passed over. -/
  skipsEmpty : Bool
  /-- The text of a variable that stands for null. -/
  nullText : Option String
deriving DecidableEq, Repr

namespace Manner

/-- The manner of a service that is told no other. -/
def standard : Manner := ⟨false, "", "", false, none⟩

/-- Whether a variable has this name. -/
def names (m : Manner) (key name : String) : Bool :=
  if m.exact then key = name else sameName key name

/-- The variables that may give a field, each behind the name that the field then goes by. -/
def candidates (m : Manner) (n : FieldNames) : List (String × String) :=
  (if n.aliases.isEmpty then [] else n.all.map fun name => (name, m.aliasStart ++ name))
    ++ [(n.own, m.ownStart ++ n.own)]

/-- What a variable with this text says. -/
def value (m : Manner) (text : String) : Json := if m.nullText = some text then .null else .str text

/-! ## Steering -/

/-- A text, or several of them. -/
def areTexts : Json → Bool
  | .str _ | .obj _ => true
  | .arr vs => vs.all fun | .str _ => true | _ => false
  | _ => false

/-- A number, or nothing. -/
def isCount : Json → Bool
  | .int _ | .float _ | .bool _ => true
  | v => v.isBlank

/-- Overrides that steer the reading of what a service does not read, and what they must be unless null:
files, secrets, nested values and the command line. -/
def idle : List (String × (Json → Bool)) :=
  [("_env_file", areTexts), ("_secrets_dir", areTexts), ("_env_nested_max_split", isCount)] ++
  ["_env_file_encoding", "_env_nested_delimiter", "_env_parse_enums",
    "_nested_model_default_partial_update", "_cli_prog_name", "_cli_parse_args", "_cli_settings_source",
    "_cli_parse_none_str", "_cli_hide_none_type", "_cli_avoid_json", "_cli_enforce_required",
    "_cli_use_class_docs_for_groups", "_cli_exit_on_error", "_cli_prefix", "_cli_flag_prefix_char",
    "_cli_implicit_flags", "_cli_ignore_unknown_args", "_cli_kebab_case", "_cli_shortcuts",
    "_cli_show_env_vars"].map
    fun name => (name, fun _ => true)

/-- Gives all sources at once, in place of overrides and environment. -/
def sourcesName : String := "_build_sources"

/-- The names of all overrides that steer. -/
def steering : List String :=
  ["_case_sensitive", "_env_prefix", "_env_prefix_target", "_env_ignore_empty", "_env_parse_none_str",
    "_env_file_depth", sourcesName] ++ idle.map Prod.fst

/-- What variables begin with: the text, if it is one. -/
def start? : Json → Option String
  | .null => some ""
  | .str s => some s
  | _ => none

/-- Whether files can be looked for so many levels up. Nothing is looked for where no file is named. -/
def canLookUp (files : Option Json) (depth : Json) : Bool :=
  match files, depth with
  | some .null, _ | some (.arr []), _ | some (.obj []), _ => true
  | _, .null | _, .int _ | _, .bool _ => true
  | _, _ => false

/-- The manner that overrides ask for, if each of them can be followed. Null asks for nothing. -/
def ofOverrides? (overrides : Table Json) : Option Manner := do
  let steer (name : String) : Json := (overrides.find? name).getD .null
  let start ← start? (steer "_env_prefix")
  let target := steer "_env_prefix_target"
  let aims (names : List String) : Bool := names.any fun name => target.text? = some name
  if (idle.all fun (name, fits) => (steer name).isNull || fits (steer name)) &&
      canLookUp (overrides.find? "_env_file") (steer "_env_file_depth") then
    some ⟨!(steer "_case_sensitive").isBlank,
      if target.isNull || aims ["variable", "all"] then start else "",
      if aims ["alias", "all"] then start else "",
      !(steer "_env_ignore_empty").isBlank,
      match steer "_env_parse_none_str" with
      | .str s => some s
      | _ => none⟩
  else none

end Manner

/-! ## The command line -/

/-- Why a command line cannot be followed. -/
inductive CommandFault where
  /-- Its names would begin with a text that no name begins with. -/
  | start (text : String)
  | notText (fault : NotText)
  /-- It is no list of arguments. -/
  | arguments (v : Json)

namespace CommandFault

/-- Whether names can begin with this: words joined by points. -/
def isStart (text : String) : Bool :=
  let word := text.toList.filter (· ≠ '.')
  text.toList.head? ≠ some '.' && text.toList.getLast? ≠ some '.' &&
    word.all (fun c => c.isAlphanum || c = '_' || 128 ≤ c.toNat) && word.head?.any (!·.isDigit)

/-- What is wrong with the command line that overrides give, if they give one. -/
def of? (overrides : Table Json) : Option CommandFault :=
  let steer (name : String) : Json := (overrides.find? name).getD .null
  let started := match steer "_cli_prefix" with
    | .str text => if text = "" ∨ isStart text then none else some (start text)
    | v => if v.isBlank then none else some (notText ⟨v, .beginning⟩)
  match steer "_cli_parse_args" with
  | .null => none
  | .arr _ | .bool _ => started
  | v => started.or (if v matches .int 0 | .float 0.0 then none else some (arguments v))

end CommandFault

/-! ## Sources -/

structure Sources where
  overrides : Table Json
  environment : List (String × String)
  manner : Manner

namespace Sources

/-- What a variable of the environment says; of two that go by one name the last one counts. -/
def assigned? (s : Sources) (name : String) : Option Json :=
  (s.environment.reverse.find? fun (key, text) =>
    s.manner.names key name && !(s.manner.skipsEmpty && text.isEmpty)).map
      fun (_, text) => s.manner.value text

/-- The first override of a name, whatever the case of its letters. -/
def overridden? (s : Sources) (name : String) : Option Json :=
  (s.overrides.rows.find? fun row => sameName row.1 name).map Prod.snd

/-- The first name of a field that an override is written as. -/
def written? (s : Sources) (n : FieldNames) : Option String :=
  n.all.find? fun name => (s.overrides.find? name).isSome

/-- The override under the first name of a field that has one. It goes by the name that it is written as,
or by the first one. -/
def override? (s : Sources) (n : FieldNames) : Option (String × Json) :=
  (n.all.findSome? s.overridden?).map ((s.written? n).getD n.first, ·)

/-- What the environment says of a field, and the name that it goes by. -/
def environment? (s : Sources) (n : FieldNames) : Option (String × Json) :=
  (s.manner.candidates n).findSome? fun (name, key) => (s.assigned? key).map (name, ·)

/-- What a field is given as. -/
def given? (s : Sources) (n : FieldNames) : Option (String × Json) :=
  (s.override? n).or (s.environment? n)

/-- What the environment says of a field that an override gives. It is kept beside the field where both go
by names of their own. -/
def shadowed? (s : Sources) (n : FieldNames) : Option (String × Json) :=
  (s.override? n).bind fun _ =>
    if (s.written? n).isSome then none else (s.environment? n).filter fun v => v.1 ≠ n.first

theorem shadowed?_eq_none {s : Sources} {n : FieldNames} (h : s.override? n = none) :
    s.shadowed? n = none := by simp [shadowed?, h]

end Sources
end CacheAside
