import Mathlib.Data.List.Basic
import SchemaCompiler.Command.Arguments

/-!
# Switches for the log on the command line

A switch for the log can be added to a command line as an argument of its own, at any place, or as a
letter among joined letters (`AddsLogSwitches`). If the command line is understood with it and
without it, it is understood in the same way but for the verbosity
(`Invocation.eq_withVerbosity_of_addsLogSwitches`).

The two readings go side by side. What they have given so far agrees after the switches for the log
are left out (`Given.withoutLog`). An argument of both keeps this (`Given.addArgument_agree`), and
so does an added switch (`Given.addArgument_logSwitch`, `Given.addArgument_joined_agree`).
-/

namespace SchemaCompiler.Command

/-- Whether a switch says how much is logged. -/
def Switch.isForLog : Switch → Bool
  | verbose | quiet => true
  | yes | noSerializers | allowRedefinition => false

/-- The ways in which a switch for the log is an argument of its own. -/
def logSwitchArguments : List String := ["-v", "-q", "--verbose", "--quiet"]

/-- The letters of the switches for the log. -/
def logLetters : List Char := ['v', 'q']

/-- The names of the switches for the log. -/
def logNames : List (List Char) := ["verbose".toList, "quiet".toList]

/-- An argument of joined letters. -/
def joined (letters : List Char) : String := String.ofList ('-' :: letters)

/-- Letters can be joined to an argument. The hyphen is no letter. -/
def Joinable (letters : List Char) : Prop :=
  ∃ first rest, letters = first :: rest ∧ first ≠ '-'

/-- A letter of an option without a value. -/
def IsSwitchLetter (letter : Char) : Prop :=
  ∃ switch, (Parameter.switch switch).short? = some letter

/-- The second list of arguments is the first one with switches for the log added to it. A switch is
an argument of its own, or its letter is joined to others, before any letter that takes the rest as
its value. -/
inductive AddsLogSwitches : List String → List String → Prop where
  | nil : AddsLogSwitches [] []
  | keep (argument : String) {arguments more : List String}
      (hrest : AddsLogSwitches arguments more) :
    AddsLogSwitches (argument :: arguments) (argument :: more)
  | add {switch : String} (hswitch : switch ∈ logSwitchArguments) {arguments more : List String}
      (hrest : AddsLogSwitches arguments more) : AddsLogSwitches arguments (switch :: more)
  | join (earlier later : List Char) (letter : Char)
      (hearlier : ∀ other ∈ earlier, IsSwitchLetter other) (hletter : letter ∈ logLetters)
      (hjoinable : Joinable (earlier ++ later)) {arguments more : List String}
      (hrest : AddsLogSwitches arguments more) :
    AddsLogSwitches (joined (earlier ++ later) :: arguments)
      (joined (earlier ++ letter :: later) :: more)

/-- A letter of a switch for the log can be joined to any letters. -/
theorem joinable_logLetter {letter : Char} (h : letter ∈ logLetters) (rest : List Char) :
    Joinable (letter :: rest) := by
  refine ⟨letter, rest, rfl, ?_⟩
  rintro rfl
  revert h
  decide

/-- A letter of a switch for the log can be joined to letters at any place. -/
theorem Joinable.insert {earlier later : List Char} (h : Joinable (earlier ++ later))
    {letter : Char} (hletter : letter ∈ logLetters) : Joinable (earlier ++ letter :: later) := by
  cases earlier with
  | nil => exact joinable_logLetter hletter later
  | cons first earlier =>
      obtain ⟨_, _, hhead, hfirst⟩ := h
      cases hhead
      exact ⟨first, _, rfl, hfirst⟩

/-- A letter of a switch for the log stands for no other option. -/
theorem Parameter.isForLog_of_short? {parameter : Parameter} {letter : Char}
    (hletter : letter ∈ logLetters) (h : parameter.short? = some letter) :
    ∃ switch, parameter = .switch switch ∧ switch.isForLog = true := by
  simp only [logLetters, List.mem_cons, List.not_mem_nil, or_false] at hletter
  rcases hletter with rfl | rfl
  all_goals
    rcases parameter with (_ | _ | _ | _ | _) | (_ | _ | _)
    all_goals first | exact ⟨_, rfl, rfl⟩ | simp [short?] at h

/-- The name of a switch for the log stands for no other option. -/
theorem Parameter.isForLog_of_long {parameter : Parameter}
    (h : parameter.long.toList ∈ logNames) :
    ∃ switch, parameter = .switch switch ∧ switch.isForLog = true := by
  rcases parameter with (_ | _ | _ | _ | _) | (_ | _ | _)
  all_goals first | exact ⟨_, rfl, rfl⟩ | exact absurd h (by decide)

/-- The letter of an option without a value stands for no option with a value. -/
theorem IsSwitchLetter.exists_switch {letter : Char} (hletter : IsSwitchLetter letter)
    {parameter : Parameter} (h : parameter.short? = some letter) :
    ∃ switch, parameter = .switch switch := by
  obtain ⟨known, hknown⟩ := hletter
  cases parameter with
  | switch switch => exact ⟨switch, rfl⟩
  | slot slot =>
      have hshared : ∀ slot switch,
          (Parameter.switch switch).short? = (Parameter.slot slot).short? →
            (Parameter.slot slot).short? = none := by
        intro slot switch
        cases slot <;> cases switch <;> decide
      rw [hshared slot known (hknown.trans h.symm)] at h
      cases h

namespace Given

/-- What the arguments have given, but for the switches for the log. -/
def withoutLog (given : Given) : Given :=
  { given with switches := given.switches.filter fun switch => !switch.isForLog }

variable {known : List Parameter} {given other after otherAfter : Given}

/-- The values agree. -/
theorem value?_agree (hagree : given.withoutLog = other.withoutLog) (slot : Slot) :
    given.value? slot = other.value? slot := by
  have hkept (level : Given) : level.withoutLog.value? slot = level.value? slot := rfl
  rw [← hkept, hagree, hkept]

/-- The switches that are not for the log agree. -/
theorem has_agree (hagree : given.withoutLog = other.withoutLog) {switch : Switch}
    (h : switch.isForLog = false) : given.has switch = other.has switch := by
  have hkept (level : Given) : level.withoutLog.has switch = level.has switch := by
    simp [has, withoutLog, h]
  rw [← hkept, hagree, hkept]

/-! ## One argument -/

/-- A switch is put behind the others. -/
theorem addSwitch_eq_some {switch : Switch} (h : given.addSwitch switch = some after) :
    after = { given with switches := given.switches ++ [switch] } := by
  rw [addSwitch] at h
  split_ifs at h
  exact (Option.some.inj h).symm

/-- A value is put behind the others, and none is due. -/
theorem addValue_eq_some {slot : Slot} {value : List Char}
    (h : given.addValue slot value = some after) :
    after =
      { given with values := given.values ++ [(slot, String.ofList value)], pending := none } := by
  rw [addValue] at h
  split_ifs at h
  exact (Option.some.inj h).symm

/-- A switch for the log is left out. -/
theorem withoutLog_addSwitch {switch : Switch} (hlog : switch.isForLog = true)
    (h : given.addSwitch switch = some after) : after.withoutLog = given.withoutLog := by
  rw [addSwitch_eq_some h]
  simp [withoutLog, hlog]

/-- Giving a switch to both keeps the agreement. -/
theorem addSwitch_agree {switch : Switch} (hagree : given.withoutLog = other.withoutLog)
    (h : given.addSwitch switch = some after) (hother : other.addSwitch switch = some otherAfter) :
    after.withoutLog = otherAfter.withoutLog := by
  rw [addSwitch_eq_some h, addSwitch_eq_some hother]
  simp only [withoutLog, mk.injEq] at hagree
  simp [withoutLog, List.filter_append, hagree]

/-- Giving a value to both keeps the agreement. -/
theorem addValue_agree {slot : Slot} {value : List Char}
    (hagree : given.withoutLog = other.withoutLog)
    (h : given.addValue slot value = some after)
    (hother : other.addValue slot value = some otherAfter) :
    after.withoutLog = otherAfter.withoutLog := by
  rw [addValue_eq_some h, addValue_eq_some hother]
  simp only [withoutLog, mk.injEq] at hagree
  simp [withoutLog, hagree]

/-- Waiting for the same value on both sides keeps the agreement. -/
theorem await_agree (hagree : given.withoutLog = other.withoutLog) (slot : Slot) :
    ({ given with pending := some slot } : Given).withoutLog =
      ({ other with pending := some slot } : Given).withoutLog := by
  simp only [withoutLog, mk.injEq] at hagree
  simp [withoutLog, hagree]

/-- Reading joined letters on both sides keeps the agreement. -/
theorem addLetters_agree {letters : List Char} (hagree : given.withoutLog = other.withoutLog)
    (h : given.addLetters known letters = some after)
    (hother : other.addLetters known letters = some otherAfter) :
    after.withoutLog = otherAfter.withoutLog := by
  induction letters generalizing given other with
  | nil =>
      cases h
      cases hother
      exact hagree
  | cons letter rest ih =>
      rw [addLetters] at h hother
      split at h
      · cases h
      · next switch hfind =>
        rw [hfind] at hother
        obtain ⟨next, hnext, hrest⟩ := Option.bind_eq_some_iff.1 h
        obtain ⟨otherNext, hotherNext, hotherRest⟩ := Option.bind_eq_some_iff.1 hother
        exact ih (addSwitch_agree hagree hnext hotherNext) hrest hotherRest
      · next slot hfind =>
        rw [hfind] at hother
        revert h hother
        dsimp only
        split
        · rintro ⟨⟩ ⟨⟩
          exact await_agree hagree slot
        · exact fun hother h => addValue_agree hagree h hother
        · exact fun hother h => addValue_agree hagree h hother

/-- Reading a long option on both sides keeps the agreement. -/
theorem addLong_agree {text : List Char} (hagree : given.withoutLog = other.withoutLog)
    (h : given.addLong known text = some after)
    (hother : other.addLong known text = some otherAfter) :
    after.withoutLog = otherAfter.withoutLog := by
  revert h hother
  simp only [addLong]
  split
  · exact addSwitch_agree hagree
  · rintro ⟨⟩ ⟨⟩
    exact await_agree hagree _
  · exact addValue_agree hagree
  · rintro ⟨⟩

/-- The agreement in terms of what decides how an argument is read. -/
theorem closed_pending_of_agree (hagree : given.withoutLog = other.withoutLog) :
    given.closed = other.closed ∧ given.pending = other.pending := by
  simp only [withoutLog, mk.injEq] at hagree
  exact ⟨hagree.2.2.2, hagree.2.2.1⟩

/-- Reading an argument on both sides keeps the agreement. -/
theorem addArgument_agree {argument : String} (hagree : given.withoutLog = other.withoutLog)
    (h : given.addArgument known argument = some after)
    (hother : other.addArgument known argument = some otherAfter) :
    after.withoutLog = otherAfter.withoutLog := by
  obtain ⟨hclosed, hpending⟩ := closed_pending_of_agree hagree
  revert h hother
  rw [addArgument, addArgument, hclosed, hpending]
  split
  · rintro ⟨⟩
  · split
    · exact addValue_agree hagree
    · rintro ⟨⟩
    · exact addValue_agree hagree
    · rintro ⟨⟩ ⟨⟩
      simp only [withoutLog, mk.injEq] at hagree
      simp [withoutLog, hagree]
    · exact addLong_agree hagree
    · exact addLetters_agree hagree
    · rintro ⟨⟩

/-! ## Added switches -/

/-- Joined letters are read one after the other, unless a value is due or the options have ended. -/
theorem addArgument_joined {letters : List Char} (hjoinable : Joinable letters)
    (h : given.addArgument known (joined letters) = some after) :
    given.addLetters known letters = some after := by
  obtain ⟨first, rest, rfl, hfirst⟩ := hjoinable
  rw [addArgument, joined, String.toList_ofList] at h
  split_ifs at h
  cases hpending : given.pending with
  | none => simpa [hpending, hfirst] using h
  | some slot => simp [hpending] at h

/-- A letter of a switch for the log changes nothing else. -/
theorem addLetters_logLetter {letter : Char} (hletter : letter ∈ logLetters) {rest : List Char}
    (h : given.addLetters known (letter :: rest) = some after) :
    ∃ next : Given, next.withoutLog = given.withoutLog ∧
      next.addLetters known rest = some after := by
  rw [addLetters] at h
  cases hfind : known.find? (·.short? == some letter) with
  | none => simp [hfind] at h
  | some parameter =>
      have hshort : parameter.short? = some letter := by simpa using List.find?_some hfind
      obtain ⟨switch, rfl, hlog⟩ := Parameter.isForLog_of_short? hletter hshort
      rw [hfind] at h
      obtain ⟨next, hnext, hrest⟩ := Option.bind_eq_some_iff.1 h
      exact ⟨next, withoutLog_addSwitch hlog hnext, hrest⟩

/-- The letters of switches are read before the letters that follow them. -/
theorem addLetters_append {earlier : List Char}
    (hearlier : ∀ letter ∈ earlier, IsSwitchLetter letter) {later : List Char}
    (h : given.addLetters known (earlier ++ later) = some after) :
    ∃ next, given.addLetters known earlier = some next ∧
      next.addLetters known later = some after := by
  induction earlier generalizing given with
  | nil => exact ⟨given, rfl, h⟩
  | cons letter earlier ih =>
      rw [List.cons_append, addLetters] at h
      rw [addLetters]
      cases hfind : known.find? (·.short? == some letter) with
      | none => simp [hfind] at h
      | some parameter =>
          have hshort : parameter.short? = some letter := by simpa using List.find?_some hfind
          obtain ⟨switch, rfl⟩ := (hearlier letter List.mem_cons_self).exists_switch hshort
          rw [hfind] at h
          obtain ⟨first, hfirst, hrest⟩ := Option.bind_eq_some_iff.1 h
          obtain ⟨next, hnext, hlater⟩ :=
            ih (fun other hother => hearlier other (List.mem_cons_of_mem _ hother)) hrest
          exact ⟨next, Option.bind_eq_some_iff.2 ⟨first, hfirst, hnext⟩, hlater⟩

/-- A letter that is joined on one side keeps the agreement. -/
theorem addArgument_joined_agree {earlier later : List Char} {letter : Char}
    (hearlier : ∀ other ∈ earlier, IsSwitchLetter other) (hletter : letter ∈ logLetters)
    (hjoinable : Joinable (earlier ++ later)) (hagree : given.withoutLog = other.withoutLog)
    (h : given.addArgument known (joined (earlier ++ later)) = some after)
    (hother : other.addArgument known (joined (earlier ++ letter :: later)) = some otherAfter) :
    after.withoutLog = otherAfter.withoutLog := by
  obtain ⟨next, hnext, hrest⟩ := addLetters_append hearlier (addArgument_joined hjoinable h)
  obtain ⟨otherNext, hotherNext, hotherRest⟩ :=
    addLetters_append hearlier (addArgument_joined (hjoinable.insert hletter) hother)
  obtain ⟨joinedNext, hsame, hjoinedRest⟩ := addLetters_logLetter hletter hotherRest
  have hstart := addLetters_agree hagree hnext hotherNext
  exact addLetters_agree (hstart.trans hsame.symm) hrest hjoinedRest

/-- The name of a switch for the log changes nothing else. -/
theorem addLong_logName {name : List Char} (hname : name ∈ logNames)
    (h : given.addLong known name = some after) : after.withoutLog = given.withoutLog := by
  -- There is no value behind the name.
  have hplain : ∀ plain ∈ logNames,
      plain.takeWhile (· ≠ '=') = plain ∧ plain.dropWhile (· ≠ '=') = [] := by decide
  rw [addLong, (hplain name hname).1, (hplain name hname).2] at h
  cases hfind : known.find? (·.long.toList == name) with
  | none => simp [hfind] at h
  | some parameter =>
      have hlong : parameter.long.toList = name := by simpa using List.find?_some hfind
      obtain ⟨switch, rfl, hlog⟩ := Parameter.isForLog_of_long (hlong ▸ hname)
      rw [hfind] at h
      exact withoutLog_addSwitch hlog h

/-- A switch for the log that is an argument of its own changes nothing else. -/
theorem addArgument_logSwitch {switch : String} (hswitch : switch ∈ logSwitchArguments)
    (h : given.addArgument known switch = some after) : after.withoutLog = given.withoutLog := by
  have hletter {letter : Char} (hlog : letter ∈ logLetters)
      (hread : given.addArgument known (joined [letter]) = some after) :
      after.withoutLog = given.withoutLog := by
    obtain ⟨next, hsame, hnext⟩ :=
      addLetters_logLetter hlog (addArgument_joined (joinable_logLetter hlog []) hread)
    cases hnext
    exact hsame
  have hname {name : List Char} (hlog : name ∈ logNames)
      (hread : given.addArgument known (joined ('-' :: name)) = some after) :
      after.withoutLog = given.withoutLog := by
    rw [addArgument, joined, String.toList_ofList] at hread
    split_ifs at hread
    cases hpending : given.pending with
    | some slot => simp [hpending] at hread
    | none =>
        have hlong : given.addLong known name = some after := by
          cases name with
          | nil => exact absurd hlog (by decide)
          | cons first rest => simpa [hpending] using hread
        exact addLong_logName hlog hlong
  simp only [logSwitchArguments, List.mem_cons, List.not_mem_nil, or_false] at hswitch
  rcases hswitch with rfl | rfl | rfl | rfl
  · exact hletter (by decide) h
  · exact hletter (by decide) h
  · exact hname (by decide) h
  · exact hname (by decide) h

/-! ## One level -/

/-- Reading arguments with and without switches for the log keeps the agreement. -/
theorem foldlM_agree {arguments more : List String} (hadds : AddsLogSwitches arguments more)
    (hagree : given.withoutLog = other.withoutLog)
    (h : arguments.foldlM (addArgument known) given = some after)
    (hother : more.foldlM (addArgument known) other = some otherAfter) :
    after.withoutLog = otherAfter.withoutLog := by
  induction hadds generalizing given other with
  | nil =>
      cases h
      cases hother
      exact hagree
  | keep argument _ ih =>
      obtain ⟨next, hnext, hrest⟩ := Option.bind_eq_some_iff.1 h
      obtain ⟨otherNext, hotherNext, hotherRest⟩ := Option.bind_eq_some_iff.1 hother
      exact ih (addArgument_agree hagree hnext hotherNext) hrest hotherRest
  | add hswitch _ ih =>
      obtain ⟨otherNext, hotherNext, hotherRest⟩ := Option.bind_eq_some_iff.1 hother
      have hsame := addArgument_logSwitch hswitch hotherNext
      exact ih (hagree.trans hsame.symm) h hotherRest
  | join _ _ _ hearlier hletter hjoinable _ ih =>
      obtain ⟨next, hnext, hrest⟩ := Option.bind_eq_some_iff.1 h
      obtain ⟨otherNext, hotherNext, hotherRest⟩ := Option.bind_eq_some_iff.1 hother
      have hstep := addArgument_joined_agree hearlier hletter hjoinable hagree hnext hotherNext
      exact ih hstep hrest hotherRest

/-- One level is read in the same way with and without switches for the log. -/
theorem ofArguments_agree {arguments more : List String} (hadds : AddsLogSwitches arguments more)
    (h : ofArguments known arguments = some given) (hother : ofArguments known more = some other) :
    given.withoutLog = other.withoutLog := by
  obtain ⟨after, hafter, hgiven⟩ := Option.bind_eq_some_iff.1 h
  obtain ⟨otherAfter, hotherAfter, hother⟩ := Option.bind_eq_some_iff.1 hother
  split_ifs at hgiven hother
  cases hgiven
  cases hother
  exact foldlM_agree hadds rfl hafter hotherAfter

end Given

/-! ## Both levels -/

namespace Invocation

/-- An argument of joined letters is an option. -/
theorem isOption_joined {letters : List Char} (h : Joinable letters) :
    isOption (joined letters) = true := by
  obtain ⟨first, rest, rfl, -⟩ := h
  simp [isOption, joined]

/-- A switch for the log is an option. -/
theorem isOption_logSwitch : ∀ switch ∈ logSwitchArguments, isOption switch = true := by
  decide

end Invocation

namespace AddsLogSwitches

open Invocation

variable {arguments more : List String}

/-- Without the options at their start, the arguments still differ by added switches. -/
theorem dropWhile_isOption (h : AddsLogSwitches arguments more) :
    AddsLogSwitches (arguments.dropWhile isOption) (more.dropWhile isOption) := by
  induction h with
  | nil => exact .nil
  | keep argument hrest ih =>
      cases hoption : isOption argument with
      | true => simpa [hoption] using ih
      | false => simpa [hoption] using hrest.keep argument
  | add hswitch _ ih => simpa [isOption_logSwitch _ hswitch] using ih
  | join _ _ _ _ hletter hjoinable _ ih =>
      simpa [isOption_joined hjoinable, isOption_joined (hjoinable.insert hletter)] using ih

/-- After the options, the subcommand comes first in both. -/
theorem exists_cons {name : String} {rest : List String} (h : AddsLogSwitches (name :: rest) more)
    (hname : isOption name = false) (hmore : ∀ first ∈ more.head?, isOption first = false) :
    ∃ moreRest, more = name :: moreRest ∧ AddsLogSwitches rest moreRest := by
  cases h with
  | keep _ hrest => exact ⟨_, rfl, hrest⟩
  | add hswitch _ =>
      have hnot := hmore _ rfl
      rw [isOption_logSwitch _ hswitch] at hnot
      cases hnot
  | join _ _ _ _ _ hjoinable _ =>
      rw [isOption_joined hjoinable] at hname
      cases hname

end AddsLogSwitches

namespace Invocation

/-- All but the verbosity is decided by what stands after the options at the start. -/
theorem ofArguments?_eq_some {arguments : List String} {invocation : Invocation}
    (h : ofArguments? arguments = some invocation) :
    ∃ name rest subcommand inner,
      arguments.dropWhile isOption = name :: rest ∧
      Subcommand.ofName? name = some subcommand ∧
      Given.ofArguments subcommand.parameters rest = some inner ∧
      inner.value? .input = some invocation.input ∧
      invocation.config = inner.value? .config ∧
      invocation.allowRedefinition = inner.has .allowRedefinition ∧
      invocation.task = taskOf subcommand inner := by
  obtain ⟨outer, -, h⟩ := Option.bind_eq_some_iff.1 h
  cases hrest : arguments.dropWhile isOption with
  | nil => simp [hrest] at h
  | cons name rest =>
      rw [hrest] at h
      obtain ⟨subcommand, hsubcommand, h⟩ := Option.bind_eq_some_iff.1 h
      split_ifs at h
      obtain ⟨inner, hinner, h⟩ := Option.bind_eq_some_iff.1 h
      obtain ⟨input, hinput, h⟩ := Option.bind_eq_some_iff.1 h
      cases h
      exact ⟨name, rest, subcommand, inner, rfl, hsubcommand, hinner, hinput, rfl, rfl, rfl⟩

/-- A subcommand has the same task when all but the switches for the log agree. -/
theorem taskOf_agree {given other : Given} (hagree : given.withoutLog = other.withoutLog)
    (subcommand : Subcommand) : taskOf subcommand given = taskOf subcommand other := by
  cases subcommand with
  | gen =>
      rw [taskOf, taskOf, Given.value?_agree hagree, Given.has_agree hagree rfl,
        Given.has_agree hagree rfl]
  | dump => rfl

/-- A command line with switches for the log added to it asks for the same but for the
verbosity. -/
theorem eq_withVerbosity_of_addsLogSwitches {arguments more : List String}
    {invocation other : Invocation} (hadds : AddsLogSwitches arguments more)
    (h : ofArguments? arguments = some invocation) (hother : ofArguments? more = some other) :
    other = { invocation with verbosity := other.verbosity } := by
  obtain ⟨name, rest, subcommand, inner, hdrop, hsubcommand, hinner, hinput, hconfig, hallow,
    htask⟩ := ofArguments?_eq_some h
  obtain ⟨otherName, otherRest, otherSubcommand, otherInner, hotherDrop, hotherSubcommand,
    hotherInner, hotherInput, hotherConfig, hotherAllow, hotherTask⟩ := ofArguments?_eq_some hother
  have hnotOption {list : List String} {first : String} {rest : List String}
      (hlist : list.dropWhile isOption = first :: rest) : isOption first = false := by
    have hhead := List.head?_dropWhile_not isOption list
    rw [hlist] at hhead
    simpa using hhead
  -- Both name the same subcommand, since no added switch can stand in its place.
  have hafter := hadds.dropWhile_isOption
  rw [hdrop, hotherDrop] at hafter
  obtain ⟨_, hcons, hrest⟩ :=
    hafter.exists_cons (hnotOption hdrop) (by simp [hnotOption hotherDrop])
  cases hcons
  obtain rfl : otherSubcommand = subcommand :=
    Option.some.inj (hotherSubcommand.symm.trans hsubcommand)
  have hagree := Given.ofArguments_agree hrest hinner hotherInner
  rw [Given.value?_agree hagree] at hinput hconfig
  rw [Given.has_agree hagree rfl] at hallow
  rw [taskOf_agree hagree] at htask
  obtain ⟨verbosity, input, config, allowRedefinition, task⟩ := invocation
  obtain ⟨otherVerbosity, otherInput, otherConfig, otherAllow, otherTask⟩ := other
  have hinputs := Option.some.inj (hotherInput.symm.trans hinput)
  have hconfigs := hotherConfig.trans hconfig.symm
  have hallows := hotherAllow.trans hallow.symm
  have htasks := hotherTask.trans htask.symm
  simp only [mk.injEq]
  exact ⟨trivial, hinputs, hconfigs, hallows, htasks⟩

end Invocation

end SchemaCompiler.Command
