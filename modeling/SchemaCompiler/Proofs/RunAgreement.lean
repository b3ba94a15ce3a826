import SchemaCompiler.Proofs.Consent
import SchemaCompiler.Proofs.Diagnostics
import SchemaCompiler.Proofs.HeaderLines
import SchemaCompiler.Proofs.LogSwitches

/-!
# Runs that agree

How much is logged, where a header goes and what is made of a schema do not change the result of a
run. `Invocation.result_independent_of_channel` compares pairs of runs on the same files and the
same input: with more switches for the log, with a header that is printed or written, and with a
header or a dump.

The user is told the same at every verbosity, less the log lines that are not shown
(`Report.messages_eq`). A run that prints does it all from the schema that it reads
(`Invocation.readSchema`), so runs that read the same schema or fail to read it in the same way end
in the same way (`Invocation.tellsOf_run`). The error that ends a run is one line
(`Failure.oneLine_details`), which comes after whole lines.
-/

namespace SchemaCompiler

/-! ## Details of errors -/

/-- A character is written without line feeds. -/
theorem Text.feed_notMem_literalChar (c : Char) : '\n' ∉ Text.literalChar c := by
  unfold Text.literalChar
  split
  · decide
  · decide
  · decide
  · decide
  · decide
  · decide
  · next hfeed _ _ =>
    split
    · simpa using fun h => hfeed h.symm
    · simp only [List.mem_append, not_or]
      refine ⟨⟨by decide, fun hmem => ?_⟩, by decide⟩
      obtain ⟨value, hvalue, hdigit⟩ := exists_of_mem_hexDigits hmem
      have hdigits : ∀ digit : Fin 16, '\n' ≠ hexDigit digit := by decide
      exact hdigits ⟨value, hvalue⟩ hdigit

/-- A literal is on one line. -/
theorem Text.oneLine_literal (text : String) : OneLine (Text.literal text) := by
  rw [OneLine, Text.literal, String.toList_ofList]
  simp [feed_notMem_literalChar]

/-- The details of a compile error are on one line. -/
theorem CompileError.oneLine_details (error : CompileError) : OneLine error.details := by
  have hline (number : Int) : OneLine number.repr := notMem_repr (by decide) (by decide) number
  cases error with
  | scan error =>
      unfold details
      simp only [oneLine_append, Text.oneLine_literal, hline, and_true]
      and_intros <;> exact oneLine_literal rfl
  | parse error =>
      have hreason : OneLine error.reason.name := by cases error.reason <;> decide
      have hkind : OneLine error.token.kind.name := by cases error.token.kind <;> decide
      have hproduction : OneLine error.production.name := by cases error.production <;> decide
      unfold details
      simp only [oneLine_append, Text.oneLine_literal, hline, hreason, hkind, hproduction, and_true]
      and_intros <;> exact oneLine_literal rfl

namespace Command

/-- The details of a failure are on one line. -/
theorem Failure.oneLine_details (failure : Failure) : OneLine failure.details := by
  cases failure with
  | file error => cases error <;> exact oneLine_literal rfl
  | options error =>
      have hnumber (number : Nat) : OneLine number.repr := notMem_repr_nat (by decide) number
      unfold details OptionsError.details
      simp only [oneLine_append, Text.oneLine_literal, hnumber, and_true]
      and_intros <;> exact oneLine_literal rfl
  | compile error => exact error.oneLine_details

/-! ## What the user sees -/

namespace Notice

/-- The level of a notice that is a log line. -/
def level? : Notice → Option Level
  | event report => some (eventLevel report)
  | compiled .. | untouched _ => some .info
  | question _ | failure _ => none

/-- Whether a notice is shown. Only log lines can be left out. -/
def isShown (verbosity : Verbosity) (notice : Notice) : Bool :=
  notice.level?.all verbosity.shows

/-- A notice is shown as in a verbose log, or not at all. -/
theorem render_eq (verbosity : Verbosity) (time : String) (notice : Notice) :
    notice.render verbosity time =
      if notice.isShown verbosity then notice.render .verbose time else "" := by
  cases notice with
  | event report => simp [render, logLine, isShown, level?, Verbosity.shows]
  | compiled input output => simp [render, logLine, isShown, level?, Verbosity.shows]
  | untouched output => simp [render, logLine, isShown, level?, Verbosity.shows]
  | question output => rfl
  | failure cause => rfl

end Notice

/-- The notices that are shown, as in a verbose log. -/
def shownOf (notices : List Notice) (verbosity : Verbosity) (time : String) : String :=
  String.join ((notices.filter (·.isShown verbosity)).map (·.render .verbose time))

/-- What the user sees are the notices that are shown, as in a verbose log. -/
theorem Report.messages_eq (report : Report) (verbosity : Verbosity) (time : String) :
    report.messages verbosity time = shownOf report.notices verbosity time := by
  rw [messages, shownOf]
  induction report.notices with
  | nil => rfl
  | cons notice notices ih =>
      rw [List.map_cons, String.join_cons, ih, notice.render_eq]
      cases hshown : notice.isShown verbosity with
      | true => simp [hshown]
      | false => simp [hshown]

/-- A text ends with a line. -/
def EndsWithLine (text line : String) : Prop :=
  OneLine line ∧ ∃ before, text = before ++ (line ++ "\n") ∧
    (before = "" ∨ ∃ start, before = start ++ "\n")

/-- Log lines of events are whole lines. -/
theorem join_events (verbosity : Verbosity) (time : String) (events : List Event) :
    String.join ((events.map Notice.event).map (·.render verbosity time)) = "" ∨
      ∃ start, String.join ((events.map Notice.event).map (·.render verbosity time)) =
        start ++ "\n" := by
  induction events with
  | nil => exact .inl rfl
  | cons report events ih =>
      rw [List.map_cons, List.map_cons, String.join_cons]
      rcases ih with hempty | ⟨start, hstart⟩
      · rw [hempty, String.append_empty, Notice.render, logLine]
        split_ifs
        · exact .inr ⟨_, rfl⟩
        · exact .inl rfl
      · rw [hstart, ← String.append_assoc]
        exact .inr ⟨_, rfl⟩

/-- What the user sees of a failure after events ends with the line of the failure. -/
theorem endsWithLine_messages {report : Report} {events : List Event} {failure : Failure}
    (h : report.notices = events.map .event ++ [.failure failure]) (verbosity : Verbosity)
    (time : String) :
    EndsWithLine (report.messages verbosity time) ("Error: " ++ failure.details) := by
  refine ⟨OneLine.append (by decide) failure.oneLine_details, _, ?_,
    join_events verbosity time events⟩
  rw [Report.messages, h, List.map_append, String.join_append]
  simp [Notice.render]

namespace Invocation

/-! ## Verbosity -/

/-- A run does the same at every verbosity. -/
theorem run_withVerbosity (invocation : Invocation) (verbosity : Verbosity) (files : Files)
    (input : ByteArray) :
    ({ invocation with verbosity := verbosity } : Invocation).run files input =
      invocation.run files input :=
  rfl

/-! ## Sources -/

/-- Two command lines name the same schema and ask for the same options, as far as these decide how
the schema is read. -/
structure SameSource (first second : Invocation) : Prop where
  input : first.input = second.input
  config : first.config = second.config
  allowRedefinition : first.allowRedefinition = second.allowRedefinition

variable {first second invocation : Invocation} {files : Files}

/-- Headers of the same source are generated with the same options. -/
theorem SameSource.loadOptions_generate (h : SameSource first second)
    {output otherOutput : Option String} {overwrite otherOverwrite noSerializers : Bool}
    (hfirst : first.task = .generate output overwrite noSerializers)
    (hsecond : second.task = .generate otherOutput otherOverwrite noSerializers) :
    first.loadOptions files = second.loadOptions files := by
  rw [loadOptions, loadOptions, h.config, h.allowRedefinition, hfirst, hsecond]
  cases noSerializers <;> rfl

/-- A header is generated with the options of a dump of the same source, but for serializers. -/
theorem SameSource.loadOptions_dump (h : SameSource first second)
    {output : Option String} {overwrite noSerializers : Bool}
    (hfirst : first.task = .generate output overwrite noSerializers)
    (hsecond : second.task = .dump) :
    first.loadOptions files =
      (second.loadOptions files).map fun options =>
        if noSerializers then { options with serializers := false } else options := by
  rw [loadOptions, loadOptions, h.config, h.allowRedefinition, hfirst, hsecond]
  cases second.config with
  | none => cases noSerializers <;> rfl
  | some path =>
      dsimp only
      cases files.readText path with
      | error error => rfl
      | ok text =>
          show (Except.mapError _ (Options.ofText text) >>= _) =
            (Except.mapError _ (Options.ofText text) >>= _).map _
          cases Options.ofText text with
          | error error => rfl
          | ok start => cases noSerializers <;> rfl

/-- The schema that a run reads, or why it cannot be read. -/
def readSchema (invocation : Invocation) (files : Files) : Except Failure Schema := do
  let options ← invocation.loadOptions files
  let text ← (files.readText invocation.input).mapError .file
  (compileSchema options text).result.mapError .compile

/-- A header and a dump of the same source come from the same schema. -/
theorem SameSource.readSchema_eq (h : SameSource first second)
    {output : Option String} {overwrite noSerializers : Bool}
    (hfirst : first.task = .generate output overwrite noSerializers)
    (hsecond : second.task = .dump) : first.readSchema files = second.readSchema files := by
  rw [readSchema, readSchema, h.loadOptions_dump hfirst hsecond, h.input]
  cases second.loadOptions files with
  | error failure => rfl
  | ok options => cases noSerializers <;> rfl

/-! ## Runs that print -/

/-- A run tells whether the schema was read: it succeeds with a schema, and ends with the failure
otherwise. -/
def TellsOf (report : Report) : Except Failure Schema → Prop
  | .ok _ => report.status = 0
  | .error failure =>
    report.status = 1 ∧
      ∃ events : List Event, report.notices = events.map .event ++ [.failure failure]

/-- A run that compiles its input and prints tells whether the schema was read, if printing always
gives a result. -/
theorem tellsOf_compileInput {options : Options}
    (hoptions : invocation.loadOptions files = .ok options)
    {print : Schema → Logged CompileError String} {finish : String → String}
    (hprint : ∀ schema, ∃ result, (print schema).result = .ok result) :
    TellsOf
      (invocation.compileInput files (fun text => (compileSchema options text).andThen print)
        fun result => .printed files (finish result))
      (invocation.readSchema files) := by
  rw [readSchema, hoptions, compileInput]
  cases files.readText invocation.input with
  | error error => exact ⟨rfl, [], rfl⟩
  | ok text =>
      show TellsOf _ ((compileSchema options text).result.mapError .compile)
      dsimp only
      cases hschema : (compileSchema options text).result with
      | error error =>
          have hfails : ((compileSchema options text).andThen print).result = .error error := by
            rw [Logged.andThen, hschema]
          rw [hfails]
          exact ⟨rfl, _, rfl⟩
      | ok schema =>
          obtain ⟨result, hresult⟩ := hprint schema
          have hgives : ((compileSchema options text).andThen print).result = .ok result := by
            rw [Logged.andThen, hschema]
            exact hresult
          rw [hgives]
          exact rfl

/-- A run that prints tells whether the schema was read. -/
theorem tellsOf_run
    (hprints : (∃ overwrite noSerializers,
      invocation.task = .generate none overwrite noSerializers) ∨ invocation.task = .dump)
    (files : Files) (input : ByteArray) :
    TellsOf (invocation.run files input) (invocation.readSchema files) := by
  cases hoptions : invocation.loadOptions files with
  | error failure =>
      rw [run, readSchema, hoptions]
      exact ⟨rfl, [], rfl⟩
  | ok options =>
      rcases hprints with ⟨overwrite, noSerializers, htask⟩ | htask
      · rw [run_of_question?_none hoptions (by rw [question?, htask]), perform, htask]
        exact tellsOf_compileInput hoptions fun schema => ⟨_, rfl⟩
      · rw [run_of_question?_none hoptions (by rw [question?, htask]), perform, htask]
        exact tellsOf_compileInput hoptions fun schema => ⟨_, rfl⟩

/-! ## Runs that write -/

/-- A header is printed as it is written, if it is written. -/
theorem SameSource.printed_of_written (h : SameSource first second) {path : String}
    {overwrite noSerializers : Bool} {input : ByteArray}
    (hfirst : first.task = .generate none overwrite noSerializers)
    (hsecond : second.task = .generate (some path) true noSerializers)
    (hstatus : (second.run files input).status = 0) :
    (first.run files input).status = 0 ∧
      ∃ place, (second.run files input).files.locate path = .ok place ∧
        (second.run files input).files.get? place =
          some (.file (first.run files input).output.toUTF8) := by
  cases run_ends second files input with
  | failed hfailed _ =>
      rw [hfailed] at hstatus
      cases hstatus
  | printed htask _ _ => exact absurd hsecond (htask path true noSerializers)
  | declined hdeclined _ _ =>
      have hasked := hdeclined.1
      rw [question?, hsecond] at hasked
      cases hasked
  | @written output _ _ options text header htask _ hoptions hinput hheader hfiles _ =>
      rw [hsecond] at htask
      cases htask
      obtain ⟨place, hlocate, hplace, hafter⟩ := Files.writeText_eq_ok hfiles
      have hprinted : (first.run files input).status = 0 ∧
          (first.run files input).output = header := by
        rw [run_of_question?_none ((h.loadOptions_generate hfirst hsecond).trans hoptions)
          (by rw [question?, hfirst]), perform, hfirst]
        simp only [compileInput, h.input, hinput, hheader]
        exact ⟨rfl, rfl⟩
      rw [hafter, hprinted.2]
      refine ⟨hprinted.1, place, Files.locate_set hplace hlocate _, ?_⟩
      rw [files.get?_set (Files.isAround_of_get? hplace), if_pos rfl]

/-! ## The main result -/

/-- On the same files and the same input, the result of a run does not depend on the log, on where
a header goes and on what is made of the schema. A run with more switches for the log has the same
status, output and files, and the user sees the same notices, less the log lines that are not shown.
A header is printed with the bytes that are written to a file, if that succeeds. A header and a dump
of the same source are both printed, or both runs fail and end with the same line. -/
theorem result_independent_of_channel (files : Files) (input : ByteArray) :
    (∀ arguments more invocation other, AddsLogSwitches arguments more →
      ofArguments? arguments = some invocation → ofArguments? more = some other →
      (other.run files input).status = (invocation.run files input).status ∧
      (other.run files input).output = (invocation.run files input).output ∧
      (other.run files input).files = (invocation.run files input).files ∧
      ∀ time,
        (invocation.run files input).messages invocation.verbosity time =
          shownOf (invocation.run files input).notices invocation.verbosity time ∧
        (other.run files input).messages other.verbosity time =
          shownOf (invocation.run files input).notices other.verbosity time) ∧
    (∀ printing writing path overwrite noSerializers, SameSource printing writing →
      printing.task = .generate none overwrite noSerializers →
      writing.task = .generate (some path) true noSerializers →
      (writing.run files input).status = 0 →
      (printing.run files input).status = 0 ∧
      ∃ place, (writing.run files input).files.locate path = .ok place ∧
        (writing.run files input).files.get? place =
          some (.file (printing.run files input).output.toUTF8)) ∧
    (∀ printing dumping overwrite noSerializers, SameSource printing dumping →
      printing.task = .generate none overwrite noSerializers → dumping.task = .dump →
      ((printing.run files input).status = 0 ∧ (dumping.run files input).status = 0) ∨
      ((printing.run files input).status = 1 ∧ (dumping.run files input).status = 1 ∧
        ∃ details : String, ∀ time,
          EndsWithLine ((printing.run files input).messages printing.verbosity time)
            ("Error: " ++ details) ∧
          EndsWithLine ((dumping.run files input).messages dumping.verbosity time)
            ("Error: " ++ details))) := by
  refine ⟨fun arguments more invocation other hadds h hother => ?_,
    fun printing writing path overwrite noSerializers hsource hprinting hwriting hstatus =>
      hsource.printed_of_written hprinting hwriting hstatus,
    fun printing dumping overwrite noSerializers hsource hprinting hdumping => ?_⟩
  · have hrun : other.run files input = invocation.run files input := by
      rw [eq_withVerbosity_of_addsLogSwitches hadds h hother, run_withVerbosity]
    rw [hrun]
    exact ⟨rfl, rfl, rfl, fun time => ⟨Report.messages_eq _ _ _, Report.messages_eq _ _ _⟩⟩
  · have hprints := tellsOf_run (.inl ⟨overwrite, noSerializers, hprinting⟩) files input
    have hdumps := tellsOf_run (.inr hdumping) files input
    rw [hsource.readSchema_eq hprinting hdumping] at hprints
    cases hschema : dumping.readSchema files with
    | ok schema =>
        rw [hschema] at hprints hdumps
        exact .inl ⟨hprints, hdumps⟩
    | error failure =>
        rw [hschema] at hprints hdumps
        obtain ⟨hprintStatus, printEvents, hprintNotices⟩ := hprints
        obtain ⟨hdumpStatus, dumpEvents, hdumpNotices⟩ := hdumps
        exact .inr ⟨hprintStatus, hdumpStatus, failure.details, fun time =>
          ⟨endsWithLine_messages hprintNotices _ time, endsWithLine_messages hdumpNotices _ time⟩⟩

/-- A command line that generates the header again and asks no questions. -/
def quickArguments : List String :=
  ["gen", "-is", "-yo", "h", "--allow-redefinition", "--no-serializers"]

/-- The same command line with a switch for the log before the subcommand and one among joined
letters. -/
def loudArguments : List String :=
  ["--quiet", "gen", "-is", "-yvo", "h", "--allow-redefinition", "--no-serializers"]

/-- The header is generated again without questions and with a verbose log. -/
def loudRegeneration : Invocation :=
  { regeneration.unasked with verbosity := .verbose }

/-- The header is printed. -/
def printedRegeneration : Invocation :=
  { regeneration with task := .generate none false true }

/-- The file with the header is taken for a schema, and a header of it is printed. -/
def printedHeader : Invocation :=
  { printedRegeneration with input := "h" }

/-- The file with the header is taken for a schema and dumped. -/
def dumpedHeader : Invocation :=
  { printedHeader with task := .dump }

/-- The switches are added to the command line. -/
theorem addsLogSwitches_loudArguments : AddsLogSwitches quickArguments loudArguments := by
  refine .add (by decide) (.keep "gen" (.keep "-is" (.join ['y'] ['o'] 'v' ?_ (by decide) ?_ ?_)))
  · intro other hother
    rw [List.mem_singleton.1 hother]
    exact ⟨.yes, rfl⟩
  · exact ⟨'y', ['o'], rfl, by decide⟩
  · exact .keep _ (.keep _ (.keep _ .nil))

/-- The run that asks no questions succeeds. -/
theorem status_unasked_regeneration (input : ByteArray) :
    (regeneration.unasked.run schemaBesideHeader input).status = 0 := by
  have hagreed := status_regeneration
  rw [run_of_question? rfl question?_regeneration, ask, agrees_yes] at hagreed
  rw [run_unasked rfl rfl]
  exact hagreed

/-- The header is no schema. -/
theorem status_dumpedHeader (input : ByteArray) :
    (dumpedHeader.run schemaBesideHeader input).status = 1 := by
  have hread : schemaBesideHeader.readText "h" = .ok "old" := by
    rw [Files.readText, locate_header]
    rfl
  have hrefused (options : Options) : (compileSchema options "old").result.isOk = false := by
    rw [compileSchema]
    cases options.allowRedefinition <;> decide +kernel
  have htells := tellsOf_run (.inr rfl : _ ∨ dumpedHeader.task = .dump) schemaBesideHeader input
  cases hschema : dumpedHeader.readSchema schemaBesideHeader with
  | error failure =>
      rw [hschema] at htells
      exact htells.1
  | ok schema =>
      obtain ⟨options, -, hrest⟩ := bind_eq_ok_iff.1 hschema
      obtain ⟨text, htext, hcompiled⟩ := bind_eq_ok_iff.1 hrest
      obtain rfl : "old" = text := Except.ok.inj (hread.symm.trans (mapError_eq_ok_iff.1 htext))
      have hnone := hrefused options
      rw [mapError_eq_ok_iff.1 hcompiled] at hnone
      cases hnone

/-- The switches for the log leave the files of the run as they are. The header is printed as it is
written. A file that holds no schema is neither made into a header nor dumped, and both runs end
with the same line. -/
theorem regeneration_same_over_channels :
    ofArguments? quickArguments = some regeneration.unasked ∧
    ofArguments? loudArguments = some loudRegeneration ∧
    (loudRegeneration.run schemaBesideHeader ByteArray.empty).files =
      (regeneration.unasked.run schemaBesideHeader ByteArray.empty).files ∧
    (∃ place,
      (regeneration.unasked.run schemaBesideHeader ByteArray.empty).files.locate "h" = .ok place ∧
      (regeneration.unasked.run schemaBesideHeader ByteArray.empty).files.get? place =
        some (.file
          (printedRegeneration.run schemaBesideHeader ByteArray.empty).output.toUTF8)) ∧
    (printedHeader.run schemaBesideHeader ByteArray.empty).status = 1 ∧
    ∃ details : String, ∀ time,
      EndsWithLine ((printedHeader.run schemaBesideHeader ByteArray.empty).messages .normal time)
        ("Error: " ++ details) ∧
      EndsWithLine ((dumpedHeader.run schemaBesideHeader ByteArray.empty).messages .normal time)
        ("Error: " ++ details) := by
  have hquick : ofArguments? quickArguments = some regeneration.unasked := rfl
  have hloud : ofArguments? loudArguments = some loudRegeneration := rfl
  obtain ⟨hlog, hwritten, hfailed⟩ :=
    result_independent_of_channel schemaBesideHeader ByteArray.empty
  obtain ⟨-, -, hfiles, -⟩ := hlog _ _ _ _ addsLogSwitches_loudArguments hquick hloud
  obtain ⟨-, hplace⟩ := hwritten printedRegeneration regeneration.unasked "h" false true
    ⟨rfl, rfl, rfl⟩ rfl rfl (status_unasked_regeneration _)
  rcases hfailed printedHeader dumpedHeader false true ⟨rfl, rfl, rfl⟩ rfl rfl with
    ⟨-, hdumped⟩ | ⟨hstatus, -, hline⟩
  · rw [status_dumpedHeader] at hdumped
    cases hdumped
  · exact ⟨hquick, hloud, hfiles, hplace, hstatus, hline⟩

end Invocation

end Command

end SchemaCompiler
