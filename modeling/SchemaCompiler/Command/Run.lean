import SchemaCompiler.Command.Notice

/-!
# Runs

A run of the program as a function of its arguments, the files it can see and its input. It loads
the options, asks before it overwrites a file, reads and compiles the schema, and writes the result.
The files change only in the last step.
-/

namespace SchemaCompiler.Command

/-- What a run leaves behind: its exit status, which is 0 for success and 1 for a failure, what was
printed on the output, what the user was told, in order, and the files. -/
structure Report where
  status : Nat
  output : String
  notices : List Notice
  files : Files

namespace Report

/-- The same report with notices before its own. -/
def after (notices : List Notice) (report : Report) : Report :=
  { report with notices := notices ++ report.notices }

/-- The report on a run that ended with a failure and changed nothing. -/
def failed (files : Files) (failure : Failure) : Report where
  status := 1
  output := ""
  notices := [.failure failure]
  files := files

/-- The report on a run that printed a text and changed nothing. -/
def printed (files : Files) (output : String) : Report where
  status := 0
  output := output
  notices := []
  files := files

/-- What the user sees of the notices. -/
def messages (report : Report) (verbosity : Verbosity) (time : String) : String :=
  String.join (report.notices.map (·.render verbosity time))

end Report

namespace Invocation

/-- The options of a run: those of the options file, or the default ones, with what the command line
asks for on top. -/
def loadOptions (invocation : Invocation) (files : Files) : Except Failure Options := do
  let options ←
    match invocation.config with
    | none => .ok Options.default
    | some path => do
      let text ← (files.readText path).mapError .file
      (Options.ofText text).mapError .options
  let options :=
    if invocation.allowRedefinition then { options with allowRedefinition := true } else options
  match invocation.task with
  | .generate _ _ true => .ok { options with serializers := false }
  | .generate _ _ false | .dump => .ok options

/-- The file that the run asks about before it overwrites it. -/
def question? (invocation : Invocation) (files : Files) : Option String :=
  match invocation.task with
  | .generate (some output) false _ => if files.isPresent output then some output else none
  | .generate .. | .dump => none

/-- Reads the schema and compiles it, and reports the events and the result. -/
def compileInput (invocation : Invocation) (files : Files)
    (compile : String → Logged CompileError String) (finish : String → Report) : Report :=
  match files.readText invocation.input with
  | .error error => .failed files (.file error)
  | .ok text =>
    let stage := compile text
    let report : Report :=
      match stage.result with
      | .error error => .failed files (.compile error)
      | .ok result => finish result
    report.after (stage.events.map .event)

/-- Writes a header to a file. -/
def writeHeader (invocation : Invocation) (files : Files) (output header : String) : Report :=
  match files.writeText output header with
  | .error error => .failed files (.file error)
  | .ok files =>
    { status := 0, output := "", notices := [.compiled invocation.input output], files }

/-- The run after its options were loaded and any question was answered with yes. -/
def perform (invocation : Invocation) (files : Files) (options : Options) : Report :=
  match invocation.task with
  | .generate none _ _ =>
    invocation.compileInput files (compileHeader options) (.printed files)
  | .generate (some output) _ _ =>
    invocation.compileInput files (compileHeader options) (invocation.writeHeader files output)
  | .dump =>
    invocation.compileInput files (compileDump options) fun dump => .printed files (dump ++ "\n")

/-- Whether the first line of the input agrees to a question: it is blank or the letter `y` of
either case, with blanks around it. An empty input does not agree. -/
def agrees (input : ByteArray) : Except Failure Bool :=
  if input.isEmpty then .ok false
  else
    match String.fromUTF8? ⟨(input.data.toList.takeWhile (· ≠ 10)).toArray⟩ with
    | none => .error (.file .invalidText)
    | some line => .ok (decide (Text.trim line.toList ∈ [[], ['y'], ['Y']]))

/-- The run that asks whether a file may be overwritten. -/
def ask (invocation : Invocation) (files : Files) (options : Options) (output : String)
    (input : ByteArray) : Report :=
  let report : Report :=
    match agrees input with
    | .error failure => .failed files failure
    | .ok true => invocation.perform files options
    | .ok false => { status := 0, output := "", notices := [.untouched output], files }
  report.after [.question output]

/-- A run of the program. -/
def run (invocation : Invocation) (files : Files) (input : ByteArray) : Report :=
  match invocation.loadOptions files with
  | .error failure => .failed files failure
  | .ok options =>
    match invocation.question? files with
    | some output => invocation.ask files options output input
    | none => invocation.perform files options

end Invocation

end SchemaCompiler.Command
