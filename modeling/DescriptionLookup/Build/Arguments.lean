import DescriptionLookup.Text.Character

/-!
# Arguments of the command line

Arguments are read from left to right: flags with their values, the root file as the only argument
without a flag, and two dashes behind which nothing is a flag any more. The first argument that
cannot be read decides, and so does the first that asks for the version or for help.
-/

namespace DescriptionLookup

/-- What the arguments of the command line set. -/
structure Arguments where
  root? : Option String := none
  crateName? : Option String := none
  /-- The extern crates as they are given, with or without another name. -/
  externs : List String := []
  marker? : Option String := none
  textAttribute? : Option String := none
  registered : List String := []
  mount? : Option String := none
  outDirectory? : Option String := none
  /-- Whether the traits are asked for instead of the lookups. -/
  support : Bool := false

/-- What the command line asks for. -/
inductive Request
  | run (arguments : Arguments)
  | version
  | help
  /-- The arguments cannot be read. -/
  | refused

namespace Arguments

/-- The arguments with a value for a flag. Only two flags may be given twice, and the name of a
directory may not be empty. -/
def setFlag? (a : Arguments) (flag value : String) : Option Arguments :=
  match flag with
  | "crate-name" => if a.crateName?.isSome then none else some { a with crateName? := some value }
  | "extern" => some { a with externs := a.externs ++ [value] }
  | "marker" => if a.marker?.isSome then none else some { a with marker? := some value }
  | "description-attr" =>
    if a.textAttribute?.isSome then none else some { a with textAttribute? := some value }
  | "register" => some { a with registered := a.registered ++ [value] }
  | "mount" => if a.mount?.isSome then none else some { a with mount? := some value }
  | "out-dir" =>
    if a.outDirectory?.isSome ∨ value.isEmpty then none
    else some { a with outDirectory? := some value }
  | _ => none

/-- The arguments with the root file, which is given once and not empty. -/
def setRoot? (a : Arguments) (root : String) : Option Arguments :=
  if a.root?.isSome ∨ root.isEmpty then none else some { a with root? := some root }

/-- The arguments when all are read: there is a root file, and the traits are not to be written to
a directory. -/
def complete (a : Arguments) : Request :=
  if a.root?.isNone ∨ (a.support ∧ a.outDirectory?.isSome) then .refused else .run a

/-- Read arguments none of which is a flag. -/
def readPlain (a : Arguments) : List String → Request
  | [] => a.complete
  | arg :: rest =>
    match a.setRoot? arg with
    | some a => readPlain a rest
    | none => .refused

/-- Whether an argument is a flag, or would be one if there were such a flag. -/
def isFlag (arg : String) : Bool := arg.toList.head? == some '-' && arg != "-"

/-- The name of a flag without its dashes, and the value behind an equals sign. -/
def splitFlag (arg : String) : String × Option String :=
  let cs := arg.toList.drop 2
  let name := String.ofList (cs.takeWhile (· != '='))
  match cs.dropWhile (· != '=') with
  | [] => (name, none)
  | _ :: value => (name, some (String.ofList value))

/-- Read a flag of one letter; further letters behind it are not looked at. -/
def readShort (arg : String) : Request :=
  match arg.toList with
  | '-' :: 'h' :: _ => .help
  | '-' :: 'V' :: _ => .version
  | _ => .refused

/-- Read arguments from left to right. -/
def read (a : Arguments) : List String → Request
  | [] => a.complete
  | arg :: rest =>
    if arg = "--" then readPlain a rest
    else if arg.toList.take 2 = ['-', '-'] then
      match splitFlag arg with
      | ("help", none) => .help
      | ("version", none) => .version
      | ("support", none) => if a.support then .refused else read { a with support := true } rest
      | (flag, some value) =>
        match a.setFlag? flag value with
        | some a => read a rest
        | none => .refused
      | (flag, none) =>
        match rest with
        | [] => .refused
        | value :: rest =>
          if isFlag value then .refused
          else
            match a.setFlag? flag value with
            | some a => read a rest
            | none => .refused
    else if isFlag arg then readShort arg
    else
      match a.setRoot? arg with
      | some a => read a rest
      | none => .refused

end Arguments

/-- What the command line with these arguments asks for. -/
def Request.ofArguments (args : List String) : Request := Arguments.read {} args

/-- The extern crate that a text names: its name in the source, and the crate if that has another
name. -/
def externOf (text : String) : String × String :=
  let trimmed := fun cs => String.ofList (Text.trim cs)
  let cs := text.toList
  match cs.dropWhile (· != '=') with
  | [] => (trimmed cs, trimmed cs)
  | _ :: crate => (trimmed (cs.takeWhile (· != '=')), trimmed crate)

end DescriptionLookup
