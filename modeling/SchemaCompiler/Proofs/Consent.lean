import Mathlib.Data.List.TakeWhile
import SchemaCompiler.Proofs.RunFiles

/-!
# Overwriting needs consent

A run that would overwrite a file asks first. `Invocation.overwriting_needs_consent` says what the
answer does. The run goes on exactly when the user consents (`Consents`): the first line of the
input is blank or the letter `y`, with blanks around it. Otherwise the run ends with all files as
they were, whatever the input file is. A run that has nothing to overwrite, or that was told not to
ask, does not look at the input at all.

What the first line and the answer on it are is said without the functions that find them
(`FirstLine`, `Text.Padded`), and `Invocation.agrees_eq_ok_true_iff`,
`Invocation.agrees_eq_ok_false` and `Invocation.agrees_of_not_text` tie the one to the other.
-/

namespace SchemaCompiler

/-! ## Blanks around a text -/

namespace Text

/-- A text is another one with blanks around it. -/
def Padded (text core : List Char) : Prop :=
  ∃ before after, text = before ++ (core ++ after) ∧
    (∀ c ∈ before, isBlank c = true) ∧ ∀ c ∈ after, isBlank c = true

/-- A text is what trimming leaves, with blanks around it. -/
theorem padded_trim (text : List Char) : Padded text (trim text) := by
  refine ⟨text.takeWhile isBlank, ((trimStart text).reverse.takeWhile isBlank).reverse, ?_,
    fun c hc => List.mem_takeWhile_imp hc,
    fun c hc => List.mem_takeWhile_imp (List.mem_reverse.1 hc)⟩
  have hend : trim text ++ ((trimStart text).reverse.takeWhile isBlank).reverse =
      trimStart text := by
    rw [trim, trimEnd, ← List.reverse_append]
    show (((trimStart text).reverse.takeWhile isBlank) ++
      (trimStart text).reverse.dropWhile isBlank).reverse = trimStart text
    rw [List.takeWhile_append_dropWhile, List.reverse_reverse]
  rw [hend]
  exact List.takeWhile_append_dropWhile.symm

/-- Nothing is trimmed from the start of a text without blanks. -/
theorem trimStart_eq_self {text : List Char} (h : ∀ c ∈ text, isBlank c = false) :
    trimStart text = text := by
  cases text with
  | nil => rfl
  | cons c rest => exact List.dropWhile_cons_of_neg (by simp [h c List.mem_cons_self])

/-- Blanks at the start of a text are trimmed. -/
theorem trimStart_append {before : List Char} (h : ∀ c ∈ before, isBlank c = true)
    (rest : List Char) : trimStart (before ++ rest) = trimStart rest :=
  List.dropWhile_append_of_pos h

/-- Blanks at the end of a text are trimmed. -/
theorem trimEnd_append {after : List Char} (h : ∀ c ∈ after, isBlank c = true)
    (text : List Char) : trimEnd (text ++ after) = trimEnd text := by
  rw [trimEnd, List.reverse_append, trimStart_append (fun c hc => h c (List.mem_reverse.1 hc)),
    trimEnd]

/-- A text without blanks is what trimming leaves of it with blanks around it. -/
theorem trim_eq_iff {text core : List Char} (hcore : ∀ c ∈ core, isBlank c = false) :
    trim text = core ↔ Padded text core := by
  constructor
  · rintro rfl
    exact padded_trim text
  · rintro ⟨before, after, rfl, hbefore, hafter⟩
    rw [trim, trimStart_append hbefore]
    cases core with
    | nil =>
        have hempty : trimStart after = [] := List.dropWhile_eq_nil_iff.2 hafter
        rw [List.nil_append, hempty]
        rfl
    | cons c core =>
        have hstart : trimStart (c :: core ++ after) = c :: core ++ after :=
          List.dropWhile_cons_of_neg (by simp [hcore c List.mem_cons_self])
        rw [hstart, trimEnd_append hafter, trimEnd, trimStart_eq_self, List.reverse_reverse]
        exact fun other hother => hcore other (List.mem_reverse.1 hother)

end Text

namespace Command

/-! ## Answers -/

/-- The first line of an input: the bytes up to the first line feed, or up to the end. -/
def FirstLine (input line : List UInt8) : Prop :=
  10 ∉ line ∧ ∃ rest, input = line ++ rest ∧ (rest = [] ∨ rest.head? = some 10)

/-- The first line of an input is the text. -/
def AnswersWith (input : ByteArray) (line : String) : Prop :=
  FirstLine input.data.toList line.toUTF8.data.toList

/-- The input consents: it is not empty, and its first line is a text that is blank or the letter
`y` of either case, with blanks around it. -/
def Consents (input : ByteArray) : Prop :=
  input.data.toList ≠ [] ∧ ∃ line answer, AnswersWith input line ∧
    Text.Padded line.toList answer ∧ answer ∈ [[], ['y'], ['Y']]

/-- The first line is found by its end. -/
theorem firstLine_iff {input line : List UInt8} :
    FirstLine input line ↔ line = input.takeWhile (· ≠ 10) := by
  constructor
  · rintro ⟨hline, rest, rfl, hend⟩
    have hinside : ∀ byte ∈ line, decide (byte ≠ 10) = true := by
      intro byte hbyte
      rw [decide_eq_true_eq]
      rintro rfl
      exact hline hbyte
    have hafter : rest.takeWhile (· ≠ 10) = [] := by
      cases rest with
      | nil => rfl
      | cons byte rest =>
          have hbyte : byte = 10 := by simpa using hend
          simp [hbyte]
    rw [List.takeWhile_append_of_pos hinside, hafter, List.append_nil]
  · rintro rfl
    refine ⟨fun hmem => ?_, input.dropWhile (· ≠ 10), List.takeWhile_append_dropWhile.symm, ?_⟩
    · simpa using List.mem_takeWhile_imp hmem
    · cases hrest : input.dropWhile (· ≠ 10) with
      | nil => exact .inl rfl
      | cons byte rest =>
          have hhead := List.head?_dropWhile_not (fun byte : UInt8 => decide (byte ≠ 10)) input
          rw [hrest] at hhead
          right
          simpa using hhead

namespace Invocation

/-- The first line is read as the text that it is. -/
theorem firstLine_eq_some_iff {input : ByteArray} {line : String} :
    String.fromUTF8? ⟨(input.data.toList.takeWhile (· ≠ 10)).toArray⟩ = some line ↔
      AnswersWith input line := by
  rw [fromUTF8?_eq_some_iff, AnswersWith, firstLine_iff]
  constructor
  · intro h
    rw [h]
  · intro h
    rw [← h]

/-- The answers that agree have no blanks. -/
theorem trim_mem_answers_iff {line : List Char} :
    Text.trim line ∈ [[], ['y'], ['Y']] ↔
      ∃ answer, Text.Padded line answer ∧ answer ∈ [[], ['y'], ['Y']] := by
  have hall : [[], ['y'], ['Y']].all (·.all (!Text.isBlank ·)) = true := by decide
  have hblank : ∀ answer ∈ [[], ['y'], ['Y']], ∀ c ∈ answer, Text.isBlank c = false := by
    simpa using hall
  constructor
  · exact fun h => ⟨_, Text.padded_trim line, h⟩
  · rintro ⟨answer, hpadded, hanswer⟩
    rwa [(Text.trim_eq_iff (hblank answer hanswer)).2 hpadded]

/-- An empty input does not agree. -/
theorem agrees_of_empty {input : ByteArray} (h : input.data.toList = []) :
    agrees input = .ok false := by
  obtain ⟨⟨bytes⟩⟩ := input
  obtain rfl : bytes = [] := h
  rfl

/-- An input whose first line is a text agrees when an answer to agree with is padded to it. -/
theorem agrees_of_answersWith {input : ByteArray} {line : String} (h : input.data.toList ≠ [])
    (hline : AnswersWith input line) :
    agrees input = .ok (decide (Text.trim line.toList ∈ [[], ['y'], ['Y']])) := by
  have hsize : input.isEmpty = false := by
    obtain ⟨⟨bytes⟩⟩ := input
    cases bytes with
    | nil => exact absurd rfl h
    | cons byte bytes => rfl
  rw [agrees, hsize, firstLine_eq_some_iff.2 hline]
  rfl

/-- An input whose first line is no text is an error. -/
theorem agrees_of_not_text {input : ByteArray} (h : ¬ ∃ line, AnswersWith input line) :
    agrees input = .error (.file .invalidText) := by
  have hsize : input.isEmpty = false := by
    obtain ⟨⟨bytes⟩⟩ := input
    cases bytes with
    | nil => exact absurd ⟨"", firstLine_iff.2 rfl⟩ h
    | cons byte bytes => rfl
  rw [agrees, hsize]
  cases hread : String.fromUTF8? ⟨(input.data.toList.takeWhile (· ≠ 10)).toArray⟩ with
  | none => rfl
  | some line => exact absurd ⟨line, firstLine_eq_some_iff.1 hread⟩ h

/-- An answer agrees exactly when it consents. -/
theorem agrees_eq_ok_true_iff {input : ByteArray} :
    agrees input = .ok true ↔ Consents input := by
  constructor
  · intro h
    have hsome : input.data.toList ≠ [] := by
      intro hempty
      rw [agrees_of_empty hempty] at h
      cases h
    by_cases htext : ∃ line, AnswersWith input line
    · obtain ⟨line, hline⟩ := htext
      rw [agrees_of_answersWith hsome hline, Except.ok.injEq, decide_eq_true_eq,
        trim_mem_answers_iff] at h
      obtain ⟨answer, hpadded, hanswer⟩ := h
      exact ⟨hsome, line, answer, hline, hpadded, hanswer⟩
    · rw [agrees_of_not_text htext] at h
      cases h
  · rintro ⟨hsome, line, answer, hline, hpadded, hanswer⟩
    rw [agrees_of_answersWith hsome hline, Except.ok.injEq, decide_eq_true_eq]
    exact trim_mem_answers_iff.2 ⟨answer, hpadded, hanswer⟩

/-- An answer that is a text and does not consent declines. -/
theorem agrees_eq_ok_false {input : ByteArray} (hconsent : ¬ Consents input)
    (h : input.data.toList = [] ∨ ∃ line, AnswersWith input line) :
    agrees input = .ok false := by
  by_cases hempty : input.data.toList = []
  · exact agrees_of_empty hempty
  · obtain ⟨line, hline⟩ := h.resolve_left hempty
    rw [← agrees_eq_ok_true_iff, agrees_of_answersWith hempty hline, Except.ok.injEq] at hconsent
    rw [agrees_of_answersWith hempty hline, Bool.eq_false_iff.2 hconsent]

/-! ## Runs with a question -/

/-- The same command line, with the wish to be asked no questions. -/
def unasked (invocation : Invocation) : Invocation :=
  match invocation.task with
  | .generate output _ noSerializers =>
    { invocation with task := .generate output true noSerializers }
  | .dump => invocation

/-- The run gets past its question: it asks, and it takes the answer as a yes. -/
def PassesQuestion (invocation : Invocation) (files : Files) (input : ByteArray) : Prop :=
  (invocation.question? files).isSome = true ∧ agrees input = .ok true

variable {invocation : Invocation} {files : Files} {options : Options} {output : String}
  {noSerializers : Bool}

/-- A run asks about its output if that is there and the command line does not forbid it. -/
theorem question?_eq_some (htask : invocation.task = .generate (some output) false noSerializers)
    (hpresent : files.isPresent output = true) : invocation.question? files = some output := by
  rw [question?, htask]
  exact if_pos hpresent

/-- A run does not ask about an output that is not there, or if the command line forbids it. -/
theorem question?_eq_none {overwrite : Bool}
    (htask : invocation.task = .generate (some output) overwrite noSerializers)
    (h : files.isPresent output = false ∨ overwrite = true) :
    invocation.question? files = none := by
  rw [question?, htask]
  cases overwrite with
  | true => rfl
  | false =>
      have habsent : files.isPresent output = false := by simpa using h
      exact if_neg (by simp [habsent])

/-- What a run does after its options were loaded is told by its question. -/
theorem run_of_question? (hoptions : invocation.loadOptions files = .ok options)
    (hquestion : invocation.question? files = some output) (input : ByteArray) :
    invocation.run files input = invocation.ask files options output input := by
  rw [run, hoptions]
  simp only [hquestion]

/-- A run without a question performs its task. -/
theorem run_of_question?_none (hoptions : invocation.loadOptions files = .ok options)
    (hquestion : invocation.question? files = none) (input : ByteArray) :
    invocation.run files input = invocation.perform files options := by
  rw [run, hoptions]
  simp only [hquestion]

/-- Options are loaded in the same way whether questions are asked or not. -/
theorem loadOptions_unasked (invocation : Invocation) (files : Files) :
    invocation.unasked.loadOptions files = invocation.loadOptions files := by
  obtain ⟨verbosity, source, config, allowRedefinition, task⟩ := invocation
  cases task with
  | generate output overwrite noSerializers => cases noSerializers <;> rfl
  | dump => rfl

/-- The run without questions performs the task. -/
theorem run_unasked {overwrite : Bool}
    (htask : invocation.task = .generate (some output) overwrite noSerializers)
    (hoptions : invocation.loadOptions files = .ok options) (input : ByteArray) :
    invocation.unasked.run files input = invocation.perform files options := by
  rw [← loadOptions_unasked] at hoptions
  obtain ⟨verbosity, source, config, allowRedefinition, task⟩ := invocation
  obtain rfl : task = .generate (some output) overwrite noSerializers := htask
  rw [run_of_question?_none hoptions rfl]
  rfl

/-- Reading and compiling the input asks no question if what follows asks none. -/
theorem question_notMem_compileInput {path : String}
    {compile : String → Logged CompileError String} {finish : String → Report}
    (hfinish : ∀ result, .question path ∉ (finish result).notices) :
    .question path ∉ (invocation.compileInput files compile finish).notices := by
  rw [compileInput]
  cases files.readText invocation.input with
  | error error => simp [Report.failed]
  | ok text =>
      dsimp only
      cases (compile text).result with
      | error error => simp [Report.after, Report.failed]
      | ok result => simp [Report.after, hfinish]

/-- Performing a task asks no question. -/
theorem question_notMem_perform (path : String) :
    .question path ∉ (invocation.perform files options).notices := by
  rw [perform]
  split
  · exact question_notMem_compileInput fun header => by simp [Report.printed]
  · refine question_notMem_compileInput fun header => ?_
    rw [writeHeader]
    split
    · simp [Report.failed]
    · simp
  · exact question_notMem_compileInput fun dump => by simp [Report.printed]

/-! ## The main result -/

/-- A run that would overwrite its output gets past its question exactly when the input consents,
and then it goes on like the run that asks no questions. If the first line of the input is a text
and does not consent, or the input is empty, the run ends with success and leaves all files as they
were, and it does the same on all other files, whatever the input file is there. If the first line
is no text, the run fails and leaves all files as they were. A run whose output is not there, or
that was told not to ask, asks nothing and does the same on every input. -/
theorem overwriting_needs_consent {overwrite : Bool}
    (htask : invocation.task = .generate (some output) overwrite noSerializers)
    (hoptions : invocation.loadOptions files = .ok options) :
    (files.isPresent output = true → overwrite = false → ∀ input,
      (invocation.PassesQuestion files input ↔ Consents input) ∧
      (Consents input →
        invocation.run files input =
          (invocation.unasked.run files input).after [.question output]) ∧
      (¬ Consents input → (input.data.toList = [] ∨ ∃ line, AnswersWith input line) →
        (invocation.run files input).status = 0 ∧ (invocation.run files input).output = "" ∧
        (invocation.run files input).files = files ∧
        ∀ other otherOptions, invocation.loadOptions other = .ok otherOptions →
          other.isPresent output = true →
          invocation.run other input = { invocation.run files input with files := other }) ∧
      ((¬ ∃ line, AnswersWith input line) →
        (invocation.run files input).status = 1 ∧
        (invocation.run files input).files = files)) ∧
    (files.isPresent output = false ∨ overwrite = true → ∀ input,
      (∀ path, .question path ∉ (invocation.run files input).notices) ∧
      ∀ other, invocation.run files other = invocation.run files input) := by
  constructor
  · rintro hpresent rfl input
    have hquestion := question?_eq_some htask hpresent
    have hrun := run_of_question? hoptions hquestion input
    refine ⟨?_, fun hconsent => ?_, fun hconsent htext => ?_, fun htext => ?_⟩
    · rw [PassesQuestion, hquestion, agrees_eq_ok_true_iff]
      simp
    · rw [hrun, run_unasked htask hoptions, ask, agrees_eq_ok_true_iff.2 hconsent]
    · have hagrees := agrees_eq_ok_false hconsent htext
      rw [hrun, ask, hagrees]
      refine ⟨rfl, rfl, rfl, fun other otherOptions hother hthere => ?_⟩
      rw [run_of_question? hother (question?_eq_some htask hthere), ask, hagrees]
      rfl
    · rw [hrun, ask, agrees_of_not_text htext]
      exact ⟨rfl, rfl⟩
  · intro h input
    have hquestion := question?_eq_none htask h
    have hrun := run_of_question?_none hoptions hquestion
    refine ⟨fun path => ?_, fun other => ?_⟩
    · rw [hrun]
      exact question_notMem_perform path
    · rw [hrun, hrun]

/-- A capital letter with blanks around it consents, whatever the lines after it say. -/
theorem consents_capitalLetter : Consents " Y\r\nno".toUTF8 := by
  refine ⟨by decide, " Y\r", ['Y'], ⟨by decide, "\nno".toUTF8.data.toList, rfl, .inr rfl⟩,
    ⟨[' '], ['\r'], rfl, List.forall_mem_singleton.2 rfl, List.forall_mem_singleton.2 rfl⟩,
    by decide⟩

/-- The run that generates the header again goes on for a consent, and leaves the files alone for
another word and for bytes that are no text. Told not to ask, it does not ask. -/
theorem regeneration_asks_first :
    regeneration.PassesQuestion schemaBesideHeader " Y\r\nno".toUTF8 ∧
    (regeneration.run schemaBesideHeader "nay".toUTF8).status = 0 ∧
    (regeneration.run schemaBesideHeader "nay".toUTF8).files = schemaBesideHeader ∧
    (regeneration.run schemaBesideHeader ⟨#[255, 10]⟩).status = 1 ∧
    (regeneration.run schemaBesideHeader ⟨#[255, 10]⟩).files = schemaBesideHeader ∧
    regeneration.unasked.run schemaBesideHeader "nay".toUTF8 =
      regeneration.unasked.run schemaBesideHeader ByteArray.empty := by
  have hpresent : schemaBesideHeader.isPresent "h" = true := by
    rw [Files.isPresent, locate_header]
    rfl
  have hword : AnswersWith "nay".toUTF8 "nay" := firstLine_iff.2 rfl
  have hnay : agrees "nay".toUTF8 = .ok false := by
    rw [agrees_of_answersWith (by decide) hword]
    rfl
  have hbytes : agrees ⟨#[255, 10]⟩ = .error (.file .invalidText) := by
    rw [agrees]
    rfl
  have hrefused : ¬ Consents "nay".toUTF8 := by
    rw [← agrees_eq_ok_true_iff, hnay]
    simp
  have hnotText : ¬ ∃ line, AnswersWith ⟨#[255, 10]⟩ line := by
    rintro ⟨line, hline⟩
    rw [agrees_of_answersWith (by decide) hline] at hbytes
    cases hbytes
  have htask : regeneration.task = .generate (some "h") false true := rfl
  have hoptions : regeneration.loadOptions schemaBesideHeader = .ok regenerationOptions := rfl
  have hunaskedTask : regeneration.unasked.task = .generate (some "h") true true := rfl
  have hunaskedOptions :
      regeneration.unasked.loadOptions schemaBesideHeader = .ok regenerationOptions := rfl
  obtain ⟨hasked, -⟩ := overwriting_needs_consent htask hoptions
  obtain ⟨-, hunasked⟩ := overwriting_needs_consent hunaskedTask hunaskedOptions
  obtain ⟨hpasses, -⟩ := hasked hpresent rfl " Y\r\nno".toUTF8
  obtain ⟨-, -, hdeclined, -⟩ := hasked hpresent rfl "nay".toUTF8
  obtain ⟨-, -, -, hfailed⟩ := hasked hpresent rfl ⟨#[255, 10]⟩
  obtain ⟨hstatus, -, hfiles, -⟩ := hdeclined hrefused (.inr ⟨"nay", hword⟩)
  obtain ⟨hfailure, hkept⟩ := hfailed hnotText
  exact ⟨hpasses.2 consents_capitalLetter, hstatus, hfiles, hfailure, hkept,
    (hunasked (.inr rfl) ByteArray.empty).2 "nay".toUTF8⟩

end Invocation

end Command

end SchemaCompiler
