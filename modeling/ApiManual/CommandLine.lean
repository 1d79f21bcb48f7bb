import ApiManual.Site.Program

/-!
# The command line

Arguments are read from left to right.  A setting takes its value from its own argument
or from the next one, and is given at most once.  The first thing that is wrong ends the
reading, and so does a request for help.
-/

namespace ApiManual.CommandLine

inductive Setting
  | source
  | output
  | baseUrl
  | extension
  deriving DecidableEq, Inhabited

inductive Flag
  | verbose
  | help
  deriving DecidableEq, Inhabited

inductive Key
  | setting (s : Setting)
  | flag (f : Flag)
  deriving DecidableEq, Inhabited

def longKeys : List (Text × Key) :=
  [("source".toList, .setting .source), ("output".toList, .setting .output),
    ("base-url".toList, .setting .baseUrl), ("extension".toList, .setting .extension),
    ("verbose".toList, .flag .verbose), ("help".toList, .flag .help)]

def shortKeys : List (Char × Key) :=
  [('s', .setting .source), ('o', .setting .output), ('b', .setting .baseUrl),
    ('e', .setting .extension), ('v', .flag .verbose), ('h', .flag .help)]

/-- What an argument is by its form. -/
inductive Word
  /-- Anything that does not begin with a dash, and a lone dash. -/
  | value (text : Text)
  | endOfKeys
  | long (name : Text) (attached : Option Text)
  | short (letters : Text)
  deriving DecidableEq, Inhabited

def Word.ofText : Text → Word
  | ['-', '-'] => .endOfKeys
  | '-' :: '-' :: rest =>
    .long (rest.takeWhile (· ≠ '='))
      (match rest.dropWhile (· ≠ '=') with
        | _ :: attached => some attached
        | [] => none)
  | '-' :: c :: rest => .short (c :: rest)
  | text => .value text

/-- What has been given so far. -/
structure Given where
  settings : List (Setting × Text) := []
  verbose : Bool := false
  deriving DecidableEq, Inhabited

def Setting.allowsEmpty : Setting → Bool
  | .source | .output => false
  | .baseUrl | .extension => true

/-- Refuses a setting that is given already, and an empty value where none is allowed. -/
def Given.set? (g : Given) (s : Setting) (value : Text) : Option Given :=
  if (g.settings.lookup s).isSome || (value.isEmpty && !s.allowsEmpty) then
    none
  else
    some { g with settings := g.settings ++ [(s, value)] }

def Given.setVerbose? (g : Given) : Option Given :=
  if g.verbose then none else some { g with verbose := true }

/-- How the reading of one argument ends. -/
inductive Reading
  | next (g : Given)
  /-- The value of the setting is the next argument. -/
  | needsValue (g : Given) (s : Setting)
  | help
  | refused
  deriving DecidableEq, Inhabited

def Reading.ofGiven? : Option Given → Reading
  | some g => .next g
  | none => .refused

def readLong (g : Given) (name : Text) (attached : Option Text) : Reading :=
  match longKeys.lookup name, attached with
  | some (.setting s), some value => .ofGiven? (g.set? s value)
  | some (.setting s), none => .needsValue g s
  | some (.flag .verbose), none => .ofGiven? g.setVerbose?
  | some (.flag .help), none => .help
  | _, _ => .refused

/-- Reads letters that share one dash.  The value of a setting may follow its letter, with
or without a `=` between the two. -/
def readShort (g : Given) : Text → Reading
  | [] => .next g
  | c :: rest =>
    match shortKeys.lookup c with
    | some (.setting s) =>
      match rest with
      | [] => .needsValue g s
      | '=' :: value => .ofGiven? (g.set? s value)
      | value => .ofGiven? (g.set? s value)
    | some (.flag .verbose) =>
      match g.setVerbose? with
      | some g => readShort g rest
      | none => .refused
    | some (.flag .help) => .help
    | none => .refused

def readWord (g : Given) : Word → Reading
  | .long name attached => readLong g name attached
  | .short letters => readShort g letters
  | .value _ => .refused
  | .endOfKeys => .refused

inductive Command
  | run (g : Given)
  | help
  | refused
  deriving DecidableEq, Inhabited

def readArgs (g : Given) : List Text → Command
  | [] => .run g
  | arg :: rest =>
    if Word.ofText arg = .endOfKeys then
      if rest.isEmpty then .run g else .refused
    else
      match readWord g (Word.ofText arg) with
      | .next g => readArgs g rest
      | .help => .help
      | .refused => .refused
      | .needsValue g s =>
        match rest with
        | [] => .refused
        | value :: rest =>
          match Word.ofText value, g.set? s value with
          | .value _, some g => readArgs g rest
          | _, _ => .refused

def Command.ofArgs (args : List Text) : Command :=
  readArgs {} args

/-- The configuration of a run.  Dots in front of the extension do not count. -/
def Given.config (g : Given) : Site.Config :=
  let standard : Site.Config := {}
  { sourceRoot := (g.settings.lookup .source).getD standard.sourceRoot
    outputRoot := (g.settings.lookup .output).getD standard.outputRoot
    baseUrl := (g.settings.lookup .baseUrl).getD standard.baseUrl
    extension :=
      ((g.settings.lookup .extension).getD standard.extension).dropWhile (· = '.') }

/-- The exit code, and the message of a run that failed. -/
structure Outcome where
  exitCode : Nat
  message : Option Text := none
  deriving DecidableEq, Inhabited

def Outcome.ofRun : Except Site.Failure Nat → Outcome
  | .ok _ => { exitCode := 0 }
  | .error e => { exitCode := 1, message := some e.message }

def execute (t : FileTree) (args : List Text) : Outcome × FileTree :=
  match Command.ofArgs args with
  | .help => ({ exitCode := 0 }, t)
  | .refused => ({ exitCode := 2 }, t)
  | .run g =>
    let (result, t) := Site.generate t g.config
    (.ofRun result, t)

end ApiManual.CommandLine
