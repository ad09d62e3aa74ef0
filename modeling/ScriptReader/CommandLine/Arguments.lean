import ScriptReader.Shell

/-! # Command line arguments

The arguments are at most one file, at most one mode for the shell, and the request for the version,
which is granted at once. They are read from left to right, and the first fault among them ends the
reading. An argument after a lone `--` is a file whatever it looks like.
-/

namespace ScriptReader.CommandLine

/-- What the program is asked to do. -/
inductive Invocation where
  | version
  | shell (mode : Shell.Mode)
  | file (path : String)
deriving DecidableEq, Repr

/-- The file and the mode that have been read so far. -/
structure Options where
  file : Option String := none
  mode : Option Shell.Mode := none
deriving DecidableEq, Repr

namespace Options

/-- Adds the file; there is at most one, and its path is not empty. -/
def addFile? (options : Options) (path : String) : Option Options :=
  if options.file.isSome ∨ path = "" then none else some { options with file := some path }

/-- Adds the mode of a given name; there is at most one. -/
def addMode? (options : Options) (name : String) : Option Options :=
  if options.mode.isSome then none
  else (Shell.Mode.ofName? name).map fun mode => { options with mode := some mode }

/-- A file is read whatever the mode; without one the shell starts. -/
def invocation (options : Options) : Invocation :=
  match options.file with
  | some path => .file path
  | none => .shell (options.mode.getD .standard)

end Options

/-- The form of a single argument. -/
inductive Form where
  | file (path : String)
  /-- The name of the mode is the next argument. -/
  | mode
  | modeNamed (name : String)
  | version
  | onlyFilesFollow
  | unknown
deriving DecidableEq, Repr

/-- A lone hyphen is a file. A single hyphen opens a run of one-letter options, of which only the
version is known. -/
def Form.ofArgument (argument : String) : Form :=
  match argument.toList with
  | ['-', '-'] => .onlyFilesFollow
  | '-' :: '-' :: 'm' :: 'o' :: 'd' :: 'e' :: '=' :: name => .modeNamed (.ofList name)
  | '-' :: '-' :: option =>
    if option = "mode".toList then .mode
    else if option = "version".toList then .version
    else .unknown
  | '-' :: 'V' :: _ => .version
  | '-' :: _ :: _ => .unknown
  | _ => .file argument

/-- Adds arguments that are files whatever they look like. -/
def addFiles? (options : Options) : List String → Option Options
  | [] => some options
  | path :: rest => do addFiles? (← options.addFile? path) rest

/-- What the arguments that are left ask for, if they are without fault. -/
def continue? (options : Options) : List String → Option Invocation
  | [] => some options.invocation
  | argument :: rest =>
    match Form.ofArgument argument with
    | .file path => do continue? (← options.addFile? path) rest
    | .modeNamed name => do continue? (← options.addMode? name) rest
    | .mode =>
      match rest with
      | [] => none
      | name :: rest => do continue? (← options.addMode? name) rest
    | .version => some .version
    | .onlyFilesFollow => (addFiles? options rest).map Options.invocation
    | .unknown => none

/-- What the arguments ask for. -/
def invocation? (arguments : List String) : Option Invocation := continue? {} arguments

end ScriptReader.CommandLine
