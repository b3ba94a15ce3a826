import Mathlib.Data.List.Basic
import SchemaCompiler.Command.Run
import SchemaCompiler.Proofs.Outcome

/-!
# What a run does to the files

A run changes at most one file, and only after everything that can fail or be refused is done.
`Invocation.run_changes_only_its_output` says which runs change nothing, and that any other run
leaves the header of its input at the place of its output and changes nothing elsewhere.

A run is looked at once, in `Invocation.run_ends`, which lists the ways in which it can end
(`Invocation.Ends`). What writing does is described by what stands at each place afterwards
(`Files.get?_set`), and a path leads to the place that it led to before (`Files.locate_set`).
-/

namespace SchemaCompiler.Command

/-! ## Files after a write -/

/-- Bytes are read as the text that they are the code of. -/
theorem fromUTF8?_eq_some_iff {bytes : ByteArray} {text : String} :
    String.fromUTF8? bytes = some text ↔ text.toUTF8 = bytes := by
  rw [String.fromUTF8?, String.toUTF8_eq_toByteArray]
  constructor
  · intro h
    split at h
    · cases h
      rfl
    · cases h
  · rintro rfl
    rw [dif_pos text.isValidUTF8]
    rfl

namespace Files

/-- What is found under a key after the values of one key were replaced. -/
theorem lookup_replace (entries : List (Place × Entry)) (place other : Place) (entry : Entry) :
    (entries.map fun known => if known.1 = place then (place, entry) else known).lookup other =
      if other = place then (entries.lookup place).map fun _ => entry
      else entries.lookup other := by
  induction entries with
  | nil => simp
  | cons known rest ih =>
      obtain ⟨key, value⟩ := known
      by_cases hkey : key = place
      · subst hkey
        by_cases hother : other = key
        · simp [hother]
        · simp [ih, hother, List.lookup_cons, beq_eq_false_iff_ne.2 hother]
      · by_cases hsame : other = key
        · subst hsame
          simp [hkey]
        · by_cases hother : other = place
          · subst hother
            simp [ih, hkey, List.lookup_cons, beq_eq_false_iff_ne.2 hsame]
          · simp [ih, hkey, hother, List.lookup_cons, beq_eq_false_iff_ne.2 hsame]

/-- A new content stands at its place and at no other one. -/
theorem get?_set (files : Files) {place : Place} (hplace : place.isAround = false)
    (content : ByteArray) (other : Place) :
    (files.set place content).get? other =
      if other = place then some (.file content) else files.get? other := by
  by_cases hother : other = place
  · subst hother
    rw [if_pos rfl, get?, if_neg (by simp [hplace]), set]
    split
    · next hknown =>
      obtain ⟨entry, hentry⟩ := Option.isSome_iff_exists.1 hknown
      rw [lookup_replace, if_pos rfl, hentry, Option.map_some]
    · next hnew =>
      rw [List.lookup_append, Option.not_isSome_iff_eq_none.1 hnew]
      simp
  · rw [if_neg hother, get?, get?, set]
    split
    · rfl
    · split
      · rw [lookup_replace, if_neg hother]
      · rw [List.lookup_append, List.lookup_cons, beq_eq_false_iff_ne.2 hother]
        simp

/-- The places around the working directory are directories, so a file stands at none of them. -/
theorem isAround_of_get? {files : Files} {place : Place}
    (h : files.get? place ≠ some .directory) : place.isAround = false := by
  refine Bool.eq_false_iff.2 fun haround => h ?_
  rw [get?, if_pos haround]

/-- Names that lead to a place without a directory lead there after a file was written there. -/
theorem follow_set {files : Files} {place start : Place} {names : List String}
    (hplace : files.get? place ≠ some .directory) (h : files.follow start names = .ok place)
    (content : ByteArray) : (files.set place content).follow start names = .ok place := by
  have haround := isAround_of_get? hplace
  induction names generalizing start with
  | nil => exact h
  | cons name rest ih =>
      rw [follow] at h ⊢
      rw [files.get?_set haround]
      split at h
      · next hdirectory =>
        -- The way leads on through a directory, which is not the place.
        have hne : start.step name ≠ place := by
          rintro rfl
          exact hplace hdirectory
        rw [if_neg hne, hdirectory]
        exact ih h
      all_goals
        split_ifs at h with hlast
        obtain rfl := Except.ok.inj h
        rw [if_pos rfl]
        exact if_pos hlast

/-- A path that leads to a place without a directory leads there after a file was written there. -/
theorem locate_set {files : Files} {place : Place} {path : String}
    (hplace : files.get? place ≠ some .directory) (h : files.locate path = .ok place)
    (content : ByteArray) : (files.set place content).locate path = .ok place :=
  follow_set hplace h content

/-- A text is written to the place that the path leads to, where no directory stands. -/
theorem writeText_eq_ok {files after : Files} {path text : String}
    (h : files.writeText path text = .ok after) :
    ∃ place, files.locate path = .ok place ∧ files.get? place ≠ some .directory ∧
      after = files.set place text.toUTF8 := by
  obtain ⟨place, hlocate, hwrite⟩ := bind_eq_ok_iff.1 h
  split_ifs at hwrite with hslashes
  rw [Decidable.not_not.1 hslashes] at hlocate
  refine ⟨place, hlocate, fun hdirectory => ?_, ?_⟩
  · rw [hdirectory] at hwrite
    cases hwrite
  · split at hwrite
    · cases hwrite
    · exact (Except.ok.inj hwrite).symm
    · exact (Except.ok.inj hwrite).symm

/-- A text that was written to a path is read from it. -/
theorem readText_set {files : Files} {place : Place} {path : String}
    (hplace : files.get? place ≠ some .directory) (h : files.locate path = .ok place)
    (text : String) : (files.set place text.toUTF8).readText path = .ok text := by
  have htext : String.fromUTF8? text.toUTF8 = some text := fromUTF8?_eq_some_iff.2 rfl
  refine bind_eq_ok_iff.2 ⟨place, locate_set hplace h text.toUTF8, ?_⟩
  rw [files.get?_set (isAround_of_get? hplace), if_pos rfl]
  simp only [htext]

end Files

/-! ## How runs end -/

namespace Invocation

/-- The run asks before it overwrites a file, and the input does not agree. -/
def Declined (invocation : Invocation) (files : Files) (input : ByteArray) : Prop :=
  (invocation.question? files).isSome = true ∧ agrees input = .ok false

/-- The options that a run starts from: those of the options file, or the default ones. -/
def StartsFrom (invocation : Invocation) (files : Files) (options : Options) : Prop :=
  match invocation.config with
  | none => options = .default
  | some path => ∃ text, files.readText path = .ok text ∧ Options.ofText text = .ok options

/-- How a run can end: something failed and nothing was written, the result was printed, the user
did not want the output to be overwritten, or the header was written. -/
inductive Ends (invocation : Invocation) (files : Files) (input : ByteArray) (report : Report) :
    Prop where
  | failed (hstatus : report.status = 1) (hfiles : report.files = files)
  | printed (htask : ∀ output overwrite noSerializers,
        invocation.task ≠ .generate (some output) overwrite noSerializers)
      (hstatus : report.status = 0) (hfiles : report.files = files)
  | declined (hdeclined : invocation.Declined files input)
      (hstatus : report.status = 0) (hfiles : report.files = files)
  | written {output : String} {overwrite noSerializers : Bool} {options : Options}
      {text header : String}
      (htask : invocation.task = .generate (some output) overwrite noSerializers)
      (hdeclined : ¬ invocation.Declined files input)
      (hoptions : invocation.loadOptions files = .ok options)
      (hinput : files.readText invocation.input = .ok text)
      (hheader : (compileHeader options text).result = .ok header)
      (hfiles : files.writeText output header = .ok report.files)
      (hstatus : report.status = 0)

variable {invocation : Invocation} {files : Files} {input : ByteArray}

/-- A run that reports a failure changed nothing. -/
theorem ends_failed (failure : Failure) :
    invocation.Ends files input (.failed files failure) :=
  .failed rfl rfl

/-- Notices before a report do not change how the run ended. -/
theorem Ends.after {report : Report} (h : invocation.Ends files input report)
    (notices : List Notice) : invocation.Ends files input (report.after notices) := by
  cases h with
  | failed hstatus hfiles => exact .failed hstatus hfiles
  | printed htask hstatus hfiles => exact .printed htask hstatus hfiles
  | declined hdeclined hstatus hfiles => exact .declined hdeclined hstatus hfiles
  | written htask hdeclined hoptions hinput hheader hfiles hstatus =>
      exact .written htask hdeclined hoptions hinput hheader hfiles hstatus

/-- A run that reads and compiles its input ends as it ends with the result, unless it fails. -/
theorem ends_compileInput {compile : String → Logged CompileError String}
    {finish : String → Report}
    (hfinish : ∀ text result, files.readText invocation.input = .ok text →
      (compile text).result = .ok result → invocation.Ends files input (finish result)) :
    invocation.Ends files input (invocation.compileInput files compile finish) := by
  rw [compileInput]
  cases hinput : files.readText invocation.input with
  | error error => exact ends_failed _
  | ok text =>
      dsimp only
      cases hresult : (compile text).result with
      | error error => exact (ends_failed _).after _
      | ok result => exact (hfinish text result hinput hresult).after _

/-- A run whose options were loaded and which was not declined prints its result or writes it. -/
theorem ends_perform {options : Options} (hoptions : invocation.loadOptions files = .ok options)
    (hdeclined : ¬ invocation.Declined files input) :
    invocation.Ends files input (invocation.perform files options) := by
  rw [perform]
  split
  · next overwrite noSerializers htask =>
    refine ends_compileInput fun text header _ _ => .printed ?_ rfl rfl
    simp [htask]
  · next output overwrite noSerializers htask =>
    refine ends_compileInput fun text header hinput hheader => ?_
    rw [writeHeader]
    cases hwrite : files.writeText output header with
    | error error => exact ends_failed _
    | ok after => exact .written htask hdeclined hoptions hinput hheader hwrite rfl
  · next htask =>
    refine ends_compileInput fun text dump _ _ => .printed ?_ rfl rfl
    simp [htask]

/-- Every run ends in one of the ways in which runs can end. -/
theorem run_ends (invocation : Invocation) (files : Files) (input : ByteArray) :
    invocation.Ends files input (invocation.run files input) := by
  rw [run]
  cases hoptions : invocation.loadOptions files with
  | error failure => exact ends_failed _
  | ok options =>
      dsimp only
      cases hquestion : invocation.question? files with
      | none =>
          refine ends_perform hoptions fun hdeclined => ?_
          simp [Declined, hquestion] at hdeclined
      | some output =>
          dsimp only
          rw [ask]
          cases hagrees : agrees input with
          | error failure => exact (ends_failed _).after _
          | ok agreed =>
              cases agreed with
              | true =>
                  refine (ends_perform hoptions fun hdeclined => ?_).after _
                  simp [Declined, hagrees] at hdeclined
              | false =>
                  have hdeclined : invocation.Declined files input := ⟨by simp [hquestion], hagrees⟩
                  exact Ends.after (.declined hdeclined rfl rfl) _

/-- A run succeeds when its options can be loaded, its question is answered with yes where it has
one, and its input can be read, compiled and written. -/
theorem status_run_of_writeText {output : String} {overwrite noSerializers : Bool}
    {options : Options} {text header : String} {after : Files}
    (htask : invocation.task = .generate (some output) overwrite noSerializers)
    (hoptions : invocation.loadOptions files = .ok options)
    (hagreed : invocation.question? files = none ∨ agrees input = .ok true)
    (hinput : files.readText invocation.input = .ok text)
    (hheader : (compileHeader options text).result = .ok header)
    (hwrite : files.writeText output header = .ok after) :
    (invocation.run files input).status = 0 := by
  have hperform : (invocation.perform files options).status = 0 := by
    simp only [perform, htask, compileInput, hinput, hheader, writeHeader, hwrite, Report.after]
  rw [run, hoptions]
  cases hquestion : invocation.question? files with
  | none => exact hperform
  | some asked =>
      have hyes : agrees input = .ok true := hagreed.resolve_left (by simp [hquestion])
      simp only [ask, hyes, Report.after]
      exact hperform

/-- The options of a run that generates a header are those that it starts from, with redefinitions
and without serializers where the command line asks for it. -/
theorem loadOptions_eq_ok {options : Options} {output : Option String}
    {overwrite noSerializers : Bool}
    (htask : invocation.task = .generate output overwrite noSerializers)
    (h : invocation.loadOptions files = .ok options) :
    ∃ start, invocation.StartsFrom files start ∧
      options =
        { start with
          allowRedefinition := start.allowRedefinition || invocation.allowRedefinition
          serializers := start.serializers && !noSerializers } := by
  have hallow (start : Options) :
      (if invocation.allowRedefinition then { start with allowRedefinition := true } else start) =
        { start with
          allowRedefinition := start.allowRedefinition || invocation.allowRedefinition } := by
    cases invocation.allowRedefinition <;> simp
  cases hconfig : invocation.config with
  | none =>
      simp only [loadOptions, hconfig, htask, hallow] at h
      refine ⟨.default, by rw [StartsFrom, hconfig], ?_⟩
      cases noSerializers with
      | false => simpa using (Except.ok.inj h).symm
      | true => simpa using (Except.ok.inj h).symm
  | some path =>
      simp only [loadOptions, hconfig, htask, hallow] at h
      obtain ⟨text, hread, hrest⟩ := bind_eq_ok_iff.1 h
      obtain ⟨start, hstart, hrest⟩ := bind_eq_ok_iff.1 hrest
      refine ⟨start, ?_, ?_⟩
      · rw [StartsFrom, hconfig]
        exact ⟨text, mapError_eq_ok_iff.1 hread, mapError_eq_ok_iff.1 hstart⟩
      · cases noSerializers with
        | false => simpa using (Except.ok.inj hrest).symm
        | true => simpa using (Except.ok.inj hrest).symm

/-! ## The main result -/

/-- A run that dumps or prints, that ends with a failure or that is declined leaves all files as
they were. Any other run leaves the header of its input, compiled with the options that the options
file and the command line ask for, at the place of its output, and changes nothing elsewhere. -/
theorem run_changes_only_its_output (invocation : Invocation) (files : Files)
    (input : ByteArray) :
    ((invocation.task = .dump ∨
        (∃ overwrite noSerializers, invocation.task = .generate none overwrite noSerializers) ∨
        (invocation.run files input).status ≠ 0 ∨ invocation.Declined files input) →
      (invocation.run files input).files = files) ∧
    (∀ output overwrite noSerializers,
      invocation.task = .generate (some output) overwrite noSerializers →
      (invocation.run files input).status = 0 → ¬ invocation.Declined files input →
      ∃ start options text header place,
        invocation.StartsFrom files start ∧
        options =
          { start with
            allowRedefinition := start.allowRedefinition || invocation.allowRedefinition
            serializers := start.serializers && !noSerializers } ∧
        files.readText invocation.input = .ok text ∧
        (compileHeader options text).result = .ok header ∧
        files.locate output = .ok place ∧
        (invocation.run files input).files.get? place = some (.file header.toUTF8) ∧
        (invocation.run files input).files.readText output = .ok header ∧
        ∀ other, other ≠ place →
          (invocation.run files input).files.get? other = files.get? other) := by
  cases run_ends invocation files input with
  | failed hstatus hfiles =>
      refine ⟨fun _ => hfiles, fun _ _ _ _ hzero => ?_⟩
      rw [hstatus] at hzero
      cases hzero
  | printed htask hstatus hfiles =>
      exact ⟨fun _ => hfiles, fun output overwrite noSerializers hwrites =>
        absurd hwrites (htask output overwrite noSerializers)⟩
  | declined hdeclined hstatus hfiles =>
      exact ⟨fun _ => hfiles, fun _ _ _ _ _ hagreed => absurd hdeclined hagreed⟩
  | @written output overwrite noSerializers options text header htask hdeclined hoptions hinput
      hheader hfiles hstatus =>
      refine ⟨?_, fun _ _ _ hwrites _ _ => ?_⟩
      · rintro (hdump | ⟨_, _, hprints⟩ | hfails | hrefused)
        · rw [htask] at hdump
          cases hdump
        · rw [htask] at hprints
          cases hprints
        · exact absurd hstatus hfails
        · exact absurd hrefused hdeclined
      · rw [htask] at hwrites
        cases hwrites
        obtain ⟨start, hstart, rfl⟩ := loadOptions_eq_ok htask hoptions
        obtain ⟨place, hlocate, hplace, hafter⟩ := Files.writeText_eq_ok hfiles
        have haround := Files.isAround_of_get? hplace
        rw [hafter]
        refine ⟨start, _, text, header, place, hstart, rfl, hinput, hheader, hlocate, ?_,
          Files.readText_set hplace hlocate header, fun other hother => ?_⟩
        · rw [files.get?_set haround, if_pos rfl]
        · rw [files.get?_set haround, if_neg hother]

/-- A schema with one message. -/
def soleMessageText : String := "package p; message M \x7b\x7d"

/-- The schema in a file, beside a header that is out of date. -/
def schemaBesideHeader : Files :=
  ⟨[(["s"], .file soleMessageText.toUTF8), (["h"], .file "old".toUTF8)]⟩

/-- Generates the header again, without serializers. -/
def regeneration : Invocation where
  verbosity := .normal
  input := "s"
  config := none
  allowRedefinition := true
  task := .generate (some "h") false true

/-- The options of the run. -/
def regenerationOptions : Options :=
  { Options.default with allowRedefinition := true, serializers := false }

/-- A path of one letter names a file of the working directory. -/
theorem namesOf_letter : ∀ path ∈ ["s", "h"], namesOf path = [path] := by
  intro path hpath
  simp only [List.mem_cons, List.not_mem_nil, or_false] at hpath
  rcases hpath with rfl | rfl
  -- The first character is no slash, and after it the path ends.
  all_goals
    rw [namesOf, String.splitOn, if_neg (by decide), String.splitOnAux,
      if_neg (by decide), if_neg (by decide), String.splitOnAux,
      if_pos (by decide)]
    decide

/-- The schema stands where its path says. -/
theorem locate_schema : schemaBesideHeader.locate "s" = .ok ["s"] := by
  rw [Files.locate, namesOf_letter "s" (by decide)]
  rfl

/-- The header stands where its path says. -/
theorem locate_header : schemaBesideHeader.locate "h" = .ok ["h"] := by
  rw [Files.locate, namesOf_letter "h" (by decide)]
  rfl

/-- The run reads the schema. -/
theorem readText_schema : schemaBesideHeader.readText "s" = .ok soleMessageText := by
  rw [Files.readText, locate_schema]
  rfl

/-- The run asks before it overwrites the header. -/
theorem question?_regeneration : regeneration.question? schemaBesideHeader = some "h" := by
  have hpresent : schemaBesideHeader.isPresent "h" = true := by
    rw [Files.isPresent, locate_header]
    rfl
  simp [question?, regeneration, hpresent]

/-- The letter `y` on a line agrees. -/
theorem agrees_yes : agrees "y\n".toUTF8 = .ok true := by
  rw [agrees]
  rfl

/-- The run succeeds when the user agrees. -/
theorem status_regeneration :
    (regeneration.run schemaBesideHeader "y\n".toUTF8).status = 0 := by
  have hcompiles : (compileHeader regenerationOptions soleMessageText).result.isOk = true := by
    decide +kernel
  have hslashes : Files.withoutSlashes "h" = "h" := by decide
  cases hheader : (compileHeader regenerationOptions soleMessageText).result with
  | error error =>
      rw [hheader] at hcompiles
      cases hcompiles
  | ok header =>
      have hwrite : schemaBesideHeader.writeText "h" header =
          .ok (schemaBesideHeader.set ["h"] header.toUTF8) := by
        rw [Files.writeText, hslashes, locate_header]
        rfl
      exact status_run_of_writeText rfl rfl (.inr agrees_yes) readText_schema hheader hwrite

/-- The user who agrees gets the new header and keeps the schema; the user who does not agree keeps
both. -/
theorem regeneration_changes_only_header :
    ofArguments? ["gen", "-is", "-o", "h", "--allow-redefinition", "--no-serializers"] =
      some regeneration ∧
    (regeneration.run schemaBesideHeader "n\n".toUTF8).files = schemaBesideHeader ∧
    ∃ header,
      (compileHeader regenerationOptions soleMessageText).result = .ok header ∧
      (regeneration.run schemaBesideHeader "y\n".toUTF8).files.readText "h" = .ok header ∧
      (regeneration.run schemaBesideHeader "y\n".toUTF8).files.get? ["s"] =
        some (.file soleMessageText.toUTF8) := by
  have hagreed : ¬ regeneration.Declined schemaBesideHeader "y\n".toUTF8 := by
    rintro ⟨-, hdeclines⟩
    rw [agrees_yes] at hdeclines
    cases hdeclines
  have hdeclined : regeneration.Declined schemaBesideHeader "n\n".toUTF8 := by
    refine ⟨by rw [question?_regeneration]; rfl, ?_⟩
    rw [agrees]
    decide
  have hkept :=
    (run_changes_only_its_output regeneration schemaBesideHeader "n\n".toUTF8).1
      (.inr (.inr (.inr hdeclined)))
  obtain ⟨start, options, text, header, place, hstart, hoptions, hinput, hheader, hlocate, -,
      hread, hother⟩ :=
    (run_changes_only_its_output regeneration schemaBesideHeader "y\n".toUTF8).2 "h" false true
      rfl status_regeneration hagreed
  obtain rfl : start = .default := hstart
  obtain rfl : soleMessageText = text := Except.ok.inj (readText_schema.symm.trans hinput)
  obtain rfl : ["h"] = place := Except.ok.inj (locate_header.symm.trans hlocate)
  subst hoptions
  exact ⟨by decide, hkept, header, hheader, hread, hother ["s"] (by decide)⟩

end Invocation

end SchemaCompiler.Command
