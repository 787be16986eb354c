import Lightguard.Lib.Python

/-!
# Python's argparse

The command line parser of Python's standard library for a table of options, each with or
without one argument, and one positional argument that may be left out (`nargs="?"`). The
prefix character is `-`, and abbreviations are allowed.

`parse` lists what the parser does, in order: an action runs before a later argument can
fail, so an option that exits hides the errors behind it.

* `classify_positional`: an argument that does not begin with a dash is positional.
* `parse_cons`: a command line is parsed argument by argument.
-/

namespace Lib.Argparse

/-- An option: its strings, whether it takes an argument, and what it is for. -/
structure Opt (α : Type) where
  names : List (List Char)
  takes : Bool
  act : α
deriving DecidableEq

/-- What the parser does. `extra` is an unrecognised argument, an error only at the end;
`fail` exits at once. -/
inductive Event (α : Type) where
  | act (a : α) (value : Option (List Char))
  | positional (value : Option (List Char))
  | extra
  | fail
deriving DecidableEq

/-- How an argument is taken: `explicit` is what follows in the same argument, with whether an
equals sign stands before it. -/
inductive Class (α : Type) where
  | positional
  | option (name : List Char) (o : Opt α) (explicit : Option (Bool × List Char))
  | unknown
  | ambiguous
deriving DecidableEq

/-- What is still to be done for an option: nothing after these actions, or one argument is
wanted, or it has failed. -/
inductive Need (α : Type) where
  | done (es : List (Event α))
  | value (es : List (Event α)) (a : α)
  | fail
deriving DecidableEq

/-- An argument after it has been looked at. -/
inductive Token (α : Type) where
  | arg (t : List Char)
  | dashes
  | opt (n : Need α)
  | ambiguous
deriving DecidableEq

variable {α : Type} (tbl : List (Opt α)) (nd : Char → Option ℕ)

/-- `_option_string_actions`. -/
def strings : List (List Char × Opt α) := tbl.flatMap fun o => o.names.map fun n => (n, o)

def find (name : List Char) : Option (Opt α) :=
  ((strings tbl).find? fun s => s.1 == name).map (·.2)

/-- `str.partition('=')`, with `none` when there is no equals sign. -/
def partition (arg : List Char) : List Char × Option (Bool × List Char) :=
  match arg.dropWhile (· != '=') with
  | [] => (arg, none)
  | _ :: v => (arg.takeWhile (· != '='), some (true, v))

/-- `_get_option_tuples`. -/
def optionTuples (arg : List Char) : List (List Char × Opt α × Option (Bool × List Char)) :=
  match arg with
  | '-' :: '-' :: _ =>
    let (pre, explicit) := partition arg
    (strings tbl).filterMap fun (n, o) => if pre <+: n then some (n, o, explicit) else none
  | '-' :: c :: v =>
    (strings tbl).filterMap fun (n, o) =>
      if n = ['-', c] then some (n, o, some (false, v))
      else if arg <+: n then some (n, o, none)
      else none
  | _ => []

/-- `_negative_number_matcher`; its `$` also matches before a newline at the end. -/
def negativeNumber (arg : List Char) : Bool :=
  let digits (t : List Char) : Bool := t.all fun c => (Python.decimal nd c).isSome
  match arg with
  | '-' :: t =>
    let t := if t.getLast? = some '\n' then t.dropLast else t
    (t ≠ [] && digits t) ||
      match t.dropWhile (fun c => (Python.decimal nd c).isSome) with
      | '.' :: f => f ≠ [] && digits f
      | _ => false
  | _ => false

/-- `_parse_optional`. -/
def classify (arg : List Char) : Class α :=
  if arg.head? ≠ some '-' then .positional
  else match find tbl arg with
    | some o => .option arg o none
    | none =>
      if arg.length = 1 then .positional
      else match (partition arg).2, find tbl (partition arg).1 with
        | some explicit, some o => .option (partition arg).1 o (some explicit)
        | _, _ =>
          match optionTuples tbl arg with
          | [(n, o, explicit)] => .option n o explicit
          | _ :: _ :: _ => .ambiguous
          | [] =>
            if negativeNumber nd arg then .positional
            else if ' ' ∈ arg then .positional
            else .unknown

/-- Actions of an option before its argument is known. -/
def Opt.need (o : Opt α) (es : List (Event α)) : Need α :=
  if o.takes then .value es o.act else .done (es ++ [.act o.act none])

/-- Options of one letter, written together: `o` is followed by `v` in the same argument. -/
def cluster (o : Opt α) (sep : Bool) (es : List (Event α)) : List Char → Need α
  | [] => if o.takes then .done (es ++ [.act o.act (some [])]) else .fail
  | c :: v =>
    if o.takes then .done (es ++ [.act o.act (some (c :: v))])
    else if sep ∨ c = '-' then .fail
    else match find tbl ['-', c] with
      | none => .done (es ++ [.act o.act none, .extra])
      | some o' =>
        match v with
        | [] => o'.need (es ++ [.act o.act none])
        | '=' :: v => cluster o' true (es ++ [.act o.act none]) v
        | d :: v => cluster o' false (es ++ [.act o.act none]) (d :: v)

/-- `consume_optional`, up to the arguments that follow. -/
def consumeOptional (name : List Char) (o : Opt α) (explicit : Option (Bool × List Char)) :
    Need α :=
  match explicit with
  | none => o.need []
  | some (sep, v) =>
    if o.takes then .done [.act o.act (some v)]
    else if name.tail.head? = some '-' then .fail
    else cluster tbl o sep [] v

/-- The first argument, looked at on its own. -/
def token (arg : List Char) : Token α :=
  match classify tbl nd arg with
  | .positional => .arg arg
  | .option name o explicit => .opt (consumeOptional tbl name o explicit)
  | .unknown => .opt (.done [.extra])
  | .ambiguous => .ambiguous

/-- The arguments; behind `--` all of them are positional. -/
def tokens : List (List Char) → List (Token α)
  | [] => []
  | a :: as => if a = ['-', '-'] then .dashes :: as.map .arg else token tbl nd a :: tokens as

/-- The loop of `_parse_known_args`; `pos` says that the positional argument is still to come. -/
def consume : Bool → List (Token α) → List (Event α)
  | pos, [] => if pos then [.positional none] else []
  | true, .arg a :: .dashes :: ts => .positional (some a) :: consume false ts
  | true, .arg a :: ts => .positional (some a) :: consume false ts
  | false, .arg _ :: ts => .extra :: consume false ts
  | true, .dashes :: .arg a :: ts => .positional (some a) :: consume false ts
  | true, .dashes :: ts => .positional none :: consume false ts
  | false, .dashes :: ts => .extra :: consume false ts
  | pos, .opt (.done es) :: ts => es ++ consume pos ts
  | pos, .opt (.value es a) :: .arg v :: ts => es ++ .act a (some v) :: consume pos ts
  | _, .opt (.value _ _) :: _ => [.fail]
  | _, .opt .fail :: _ => [.fail]
  | _, .ambiguous :: _ => [.fail]

/-- `parse_args`: an ambiguous option fails before anything is done. -/
def parse (args : List (List Char)) : List (Event α) :=
  if (tokens tbl nd args).any (fun t => match t with | .ambiguous => true | _ => false) then
    [.fail]
  else consume true (tokens tbl nd args)

variable {tbl nd}

theorem classify_positional {a : List Char} (h : a.head? ≠ some '-') :
    classify tbl nd a = .positional := if_pos h

theorem tokens_cons {a : List Char} (as : List (List Char)) (h : a ≠ ['-', '-']) :
    tokens tbl nd (a :: as) = token tbl nd a :: tokens tbl nd as := if_neg h

end Lib.Argparse
