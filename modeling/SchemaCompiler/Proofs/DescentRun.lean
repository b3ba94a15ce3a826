import SchemaCompiler.Proofs.DescentProgress
import SchemaCompiler.Proofs.Lockstep

/-!
# The rules and the transitions agree

A run by recursive descent and a run along the transitions of the parser give the same schema or
error and the same reports (`Rule.run_schema`). `Rule.Agrees` compares the two where a rule is
called and where it ends: `Cursor.resume` is what the transitions give from a state on, and a rule
that succeeds keeps it. So the rules stop looking at the first end of the input as the transitions
do (`Rule.outcome_schema_at_end`).
-/

namespace SchemaCompiler

open State

variable {allowRedefinition : Bool}

/-- A stage that reports nothing has the events before it. -/
theorem Logged.after_ofExcept {ε α : Type} (events : List Event) (result : Except ε α) :
    (Logged.ofExcept result).after events = ⟨events, result⟩ := by
  rw [after, ofExcept, List.append_nil]

/-! ## Transitions at a cursor -/

namespace Cursor

/-- What the transitions from a state give for the tokens after the place, with what was reported
before. -/
def resume (allowRedefinition : Bool) (cursor : Cursor) (state : State) :
    Logged ParseError Schema :=
  (state.run allowRedefinition cursor.rest).after cursor.events

/-- A run looks at the next token, and past the list at the end of the input. -/
theorem run_rest (cursor : Cursor) (state : State) :
    state.run allowRedefinition cursor.rest =
      state.run allowRedefinition (cursor.peek :: cursor.advance.rest) := by
  by_cases hlength : cursor.index < cursor.tokens.length
  · have hpeek : cursor.peek = cursor.tokens[cursor.index] := by
      rw [peek, List.getElem?_eq_getElem hlength, Option.getD_some]
    rw [rest, List.drop_eq_getElem_cons hlength, hpeek]
    rfl
  · have hpast : cursor.tokens.length ≤ cursor.index := Nat.le_of_not_lt hlength
    rw [rest, peek, List.getElem?_eq_none hpast, List.drop_eq_nil_of_le hpast]
    rfl

variable {cursor : Cursor} {state next : State}

/-- A transition over the next token. -/
theorem resume_of_step {events : List Event}
    (h : Step allowRedefinition state cursor.peek next events) :
    cursor.resume allowRedefinition state =
      { cursor.advance with events := cursor.events ++ events }.resume allowRedefinition next := by
  have hrun := h.steps.run_append cursor.advance.rest
  rw [List.singleton_append] at hrun
  rw [resume, run_rest, hrun, resume]
  simp only [Logged.after, List.append_assoc]
  rfl

/-- A transition over the next token that reports nothing. -/
theorem resume_of_silent_step (h : Step allowRedefinition state cursor.peek next []) :
    cursor.resume allowRedefinition state = cursor.advance.resume allowRedefinition next := by
  rw [resume_of_step h, List.append_nil]
  rfl

/-- The next token is refused. -/
theorem resume_of_refuses {error : ParseError}
    (h : Refuses allowRedefinition state cursor.peek error) :
    cursor.resume allowRedefinition state = ⟨cursor.events, .error error⟩ := by
  unfold Refuses at h
  rw [resume, run_rest, State.run]
  split_ifs at h with hkind
  · rw [if_pos hkind, h, Logged.after_ofExcept]
  · rw [if_neg hkind, h]
    exact Logged.after_ofExcept _ _

/-- The input ends at the next token. -/
theorem resume_of_end (hkind : cursor.peek.kind = .endOfInput) (schema : Schema) :
    cursor.resume allowRedefinition (.nextMessage schema) = ⟨cursor.events, .ok schema⟩ := by
  rw [resume, run_rest, State.run, if_pos hkind, finish, Logged.after_ofExcept]

end Cursor

/-- A state refuses a token that has no place in its rule. -/
theorem State.Refuses.of_unexpected {state : State} {token : Token}
    (hfinish : state.finish token = .error (state.unexpected token))
    (hadvance : state.advance allowRedefinition token = .error (state.unexpected token)) :
    Refuses allowRedefinition state token (.unexpected state.production token) := by
  unfold Refuses
  split
  · exact hfinish
  · exact hadvance

/-! ## Agreement -/

namespace Rule

variable {α β σ : Type}

/-- `Agrees allow before rule after` says that the rule and the transitions agree, if at the call
the place and the state are related by `before`: an error of the rule is that of the transitions,
and where it succeeds, the place and a later state are related by `after` and give the same. -/
def Agrees (allowRedefinition : Bool) (before : Cursor → State → Prop) (rule : Rule α)
    (after : α → Cursor → State → Prop) : Prop :=
  ∀ cursor state, before cursor state → ∀ result next, rule.run cursor = some (result, next) →
    match result with
    | .ok value => ∃ later, after value next later ∧
        cursor.resume allowRedefinition state = next.resume allowRedefinition later
    | .error error => cursor.resume allowRedefinition state = ⟨next.events, .error error⟩

variable {before : Cursor → State → Prop} {test : Token → Bool}

/-- Rules agree one after the other. -/
theorem Agrees.bind {rule : Rule α} {next : α → Rule β} {middle : α → Cursor → State → Prop}
    {after : β → Cursor → State → Prop} (h : Agrees allowRedefinition before rule middle)
    (hnext : ∀ value, Agrees allowRedefinition (middle value) (next value) after) :
    Agrees allowRedefinition before (rule >>= next) after := by
  intro cursor state hbefore result last hrun
  rcases run_bind_eq_some hrun with ⟨error, rfl, hfirst⟩ | ⟨value, place, hfirst, hsecond⟩
  · exact h cursor state hbefore _ _ hfirst
  · obtain ⟨later, hmiddle, hresume⟩ := h cursor state hbefore _ _ hfirst
    rw [hresume]
    exact hnext value place later hmiddle _ _ hsecond

/-- A value is given without a transition. -/
theorem agrees_pure {after : α → Cursor → State → Prop} {value : α}
    (h : ∀ cursor state, before cursor state → after value cursor state) :
    Agrees allowRedefinition before (pure value) after := by
  rintro cursor state hbefore result next ⟨⟩
  exact ⟨state, h cursor state hbefore, rfl⟩

/-- Reading a token agrees with a transition over it, or with its refusal. -/
theorem agrees_readToken {read : MessageTable → Token → Except ParseError α}
    {after : α → Cursor → State → Prop}
    (hok : ∀ cursor state value, before cursor state →
      read cursor.declared cursor.peek = .ok value →
      ∃ later, Step allowRedefinition state cursor.peek later [] ∧
        after value cursor.advance later)
    (herror : ∀ cursor state error, before cursor state →
      read cursor.declared cursor.peek = .error error →
      Refuses allowRedefinition state cursor.peek error) :
    Agrees allowRedefinition before (readToken read) after := by
  intro cursor state hbefore result next hrun
  obtain ⟨hresult, rfl⟩ := run_unique (run_readToken read cursor) hrun
  rw [hresult]
  cases result with
  | ok value =>
      obtain ⟨later, hstep, hafter⟩ := hok cursor state value hbefore hresult
      exact ⟨later, hafter, Cursor.resume_of_silent_step hstep⟩
  | error error => exact Cursor.resume_of_refuses (herror cursor state error hbefore hresult)

/-- A token that is due agrees with a transition over it, or with its refusal. -/
theorem agrees_expect {production : Production} {after : Token → Cursor → State → Prop}
    (haccept : ∀ cursor state, before cursor state → test cursor.peek = true →
      ∃ later, Step allowRedefinition state cursor.peek later [] ∧
        after cursor.peek cursor.advance later)
    (hrefuse : ∀ cursor state, before cursor state → test cursor.peek = false →
      Refuses allowRedefinition state cursor.peek (.unexpected production cursor.peek)) :
    Agrees allowRedefinition before (expect test production) after := by
  refine agrees_readToken (fun cursor state value hbefore hvalue => ?_)
    fun cursor state error hbefore herror => ?_
  · split_ifs at hvalue with htest
    cases hvalue
    exact haccept cursor state hbefore htest
  · split_ifs at herror with htest
    cases herror
    exact hrefuse cursor state hbefore (Bool.eq_false_iff.2 htest)

/-- Trying a token agrees with a transition over it. -/
theorem agrees_eat {after : Bool → Cursor → State → Prop}
    (haccept : ∀ cursor state, before cursor state → test cursor.peek = true →
      ∃ later, Step allowRedefinition state cursor.peek later [] ∧
        after true cursor.advance later)
    (hpass : ∀ cursor state, before cursor state → test cursor.peek = false →
      after false cursor state) :
    Agrees allowRedefinition before (eat test) after := by
  intro cursor state hbefore result next hrun
  obtain ⟨rfl, rfl⟩ := run_unique (run_eat test cursor) hrun
  cases htest : test cursor.peek with
  | true =>
      obtain ⟨later, hstep, hafter⟩ := haccept cursor state hbefore htest
      exact ⟨later, hafter, Cursor.resume_of_silent_step hstep⟩
  | false => exact ⟨state, hpass cursor state hbefore htest, rfl⟩

/-- Looking at a token agrees with its refusal. -/
theorem agrees_look {seen : MessageTable → Token → Except ParseError Unit}
    {after : Unit → Cursor → State → Prop}
    (hok : ∀ cursor state, before cursor state → seen cursor.declared cursor.peek = .ok () →
      after () cursor state)
    (herror : ∀ cursor state error, before cursor state →
      seen cursor.declared cursor.peek = .error error →
      Refuses allowRedefinition state cursor.peek error) :
    Agrees allowRedefinition before (look seen) after := by
  intro cursor state hbefore result next hrun
  obtain ⟨hresult, rfl⟩ : seen cursor.declared cursor.peek = result ∧ cursor = next :=
    Prod.mk.inj (Option.some.inj hrun)
  cases result with
  | ok value => exact ⟨state, hok cursor state hbefore hresult, rfl⟩
  | error error => exact Cursor.resume_of_refuses (herror cursor state error hbefore hresult)

/-- The rounds of a loop agree if each of them does. -/
theorem agrees_loopRun {body : σ → Rule σ} {invariant : σ → Cursor → State → Prop}
    (hround : ∀ value, Agrees allowRedefinition
      (fun cursor state => invariant value cursor state ∧ test cursor.peek = false) (body value)
      invariant)
    {value last : σ} {cursor final : Cursor} (h : LoopRun test body value cursor last final)
    {state : State} (hinvariant : invariant value cursor state) :
    ∃ later, invariant last final later ∧
      cursor.resume allowRedefinition state = final.resume allowRedefinition later := by
  induction h generalizing state with
  | refl value cursor => exact ⟨state, hinvariant, rfl⟩
  | round htest hrun _ ih =>
      obtain ⟨middle, hmiddle, hresume⟩ := hround _ _ state ⟨hinvariant, htest⟩ _ _ hrun
      obtain ⟨later, hlater, hmore⟩ := ih hmiddle
      exact ⟨later, hlater, hresume.trans hmore⟩

/-! ## Fields -/

section

variable {package : String} {name : Token} {fields : List Field}

/-- The state in the body of a message, after the messages declared before it. -/
def InBody (package : String) (name : Token) (fields : List Field) (place : FieldPlace)
    (cursor : Cursor) (state : State) : Prop :=
  state = .messageBody ⟨package, cursor.declared⟩ name fields place

/-- The state where a type is due: after the word `repeated`, or where neither this word nor a
closing brace comes next. -/
def BeforeType (package : String) (name : Token) (fields : List Field) :
    Bool → Cursor → State → Prop
  | true, cursor, state => InBody package name fields .afterRepeated cursor state
  | false, cursor, state => InBody package name fields .start cursor state ∧
      cursor.peek.isReserved "\x7d" = false ∧ cursor.peek.isReserved "repeated" = false

/-- The state after a field up to its number: after the number, or where none comes next. -/
def AfterNumber (package : String) (name : Token) (fields : List Field) (field : Field)
    (cursor : Cursor) (state : State) : Prop :=
  InBody package name fields (.afterNumber field) cursor state ∨
    InBody package name fields (.afterName field) cursor state ∧
      cursor.peek.isReserved "=" = false

/-- The word `repeated` agrees. -/
theorem agrees_repeated :
    Agrees allowRedefinition
      (fun cursor state => InBody package name fields .start cursor state ∧
        cursor.peek.isReserved "\x7d" = false)
      (eat (·.isReserved "repeated")) (BeforeType package name fields) := by
  refine agrees_eat ?_ ?_
  · rintro cursor _ ⟨rfl, -⟩ htest
    rw [Token.eq_reserved_of_isReserved htest]
    exact ⟨_, .fieldRepeated .., rfl⟩
  · rintro cursor state ⟨hstate, hclose⟩ htest
    exact ⟨hstate, hclose, htest⟩

/-- A token that names no type is refused where one is due. -/
theorem BeforeType.refuses {repeated : Bool} {cursor : Cursor} {state : State}
    (h : BeforeType package name fields repeated cursor state)
    (htype : FieldType.ofToken? cursor.declared cursor.peek = none) :
    Refuses allowRedefinition state cursor.peek
      (if cursor.peek.kind = .endOfInput then .unexpected .type cursor.peek
        else ⟨.unknownType, cursor.peek, .type⟩) := by
  unfold Refuses
  cases repeated with
  | true =>
      obtain rfl : state = _ := h
      split
      · rfl
      · rw [State.advance, advanceBody, readType, htype]
        rfl
  | false =>
      obtain ⟨rfl, hclose, hrepeated⟩ := h
      split
      · rfl
      · simp only [State.advance, advanceBody, readType, htype, hclose, hrepeated]
        rfl

/-- The type of a field agrees. -/
theorem agrees_fieldType (repeated : Bool) :
    Agrees allowRedefinition (BeforeType package name fields repeated) fieldType
      fun type => InBody package name fields (.afterType repeated type) := by
  refine agrees_readToken (fun cursor state type hbefore htype => ?_)
    fun cursor state error hbefore herror => ?_
  · split at htype
    · next found hfound =>
      cases htype
      cases repeated with
      | true =>
          obtain rfl : state = _ := hbefore
          exact ⟨_, .fieldRepeatedType _ _ _ _ _ hfound, rfl⟩
      | false =>
          obtain ⟨rfl, -⟩ := hbefore
          exact ⟨_, .fieldType _ _ _ _ _ hfound, rfl⟩
    · cases htype
  · split at herror
    · cases herror
    · next hnone =>
      cases herror
      exact hbefore.refuses hnone

/-- The name of a field agrees. -/
theorem agrees_fieldName (repeated : Bool) (type : FieldType) :
    Agrees allowRedefinition (InBody package name fields (.afterType repeated type))
      (expect (·.kind = .identifier) .field)
      fun token => InBody package name fields
        (.afterName { identifier := token.content, type, repeated }) := by
  refine agrees_expect ?_ ?_
  · rintro cursor _ rfl htest
    rw [Token.eq_identifier_of_kind (of_decide_eq_true htest)]
    exact ⟨_, .fieldName .., rfl⟩
  · rintro cursor _ rfl htest
    exact .of_unexpected rfl (if_neg (of_decide_eq_false htest))

/-- The number of a field agrees. -/
theorem agrees_fieldNumber (field : Field) :
    Agrees allowRedefinition (InBody package name fields (.afterName field)) fieldNumber
      fun _ => AfterNumber package name fields field := by
  have hequals : Agrees allowRedefinition (InBody package name fields (.afterName field))
      (eat (·.isReserved "=")) fun found cursor state =>
        if found then InBody package name fields (.afterEquals field) cursor state
        else InBody package name fields (.afterName field) cursor state ∧
          cursor.peek.isReserved "=" = false := by
    refine agrees_eat ?_ fun cursor state hstate htest => ⟨hstate, htest⟩
    rintro cursor _ rfl htest
    rw [Token.eq_reserved_of_isReserved htest]
    exact ⟨_, .fieldEquals .., rfl⟩
  have hnumber : Agrees allowRedefinition (InBody package name fields (.afterEquals field))
      (expect (·.kind = .number) .field)
      fun _ => InBody package name fields (.afterNumber field) := by
    refine agrees_expect ?_ ?_
    · rintro cursor _ rfl htest
      rw [Token.eq_number_of_kind (of_decide_eq_true htest)]
      exact ⟨_, .fieldNumber .., rfl⟩
    · rintro cursor _ rfl htest
      exact .of_unexpected rfl (if_neg (of_decide_eq_false htest))
  refine hequals.bind fun found => ?_
  cases found with
  | true => exact hnumber.bind fun _ => agrees_pure fun _ _ hstate => .inl hstate
  | false => exact agrees_pure fun _ _ hstate => .inr hstate

/-- The end of a field agrees. -/
theorem agrees_fieldEnd (field : Field) :
    Agrees allowRedefinition (AfterNumber package name fields field)
      (expect (·.isReserved ";") .field)
      fun _ => InBody package name (fields ++ [field]) .start := by
  refine agrees_expect ?_ ?_
  · rintro cursor _ (rfl | ⟨rfl, hnumber⟩) htest
    · rw [Token.eq_reserved_of_isReserved htest]
      exact ⟨_, .numberedFieldEnd .., rfl⟩
    · rw [Token.eq_reserved_of_isReserved htest]
      exact ⟨_, .fieldEnd .., rfl⟩
  · rintro cursor _ (rfl | ⟨rfl, hnumber⟩) htest
    · exact .of_unexpected rfl (by simp [State.advance, advanceBody, htest])
    · exact .of_unexpected rfl (by simp [State.advance, advanceBody, htest, hnumber])

/-- A field agrees, if no closing brace comes next. -/
theorem agrees_field :
    Agrees allowRedefinition
      (fun cursor state => InBody package name fields .start cursor state ∧
        cursor.peek.isReserved "\x7d" = false)
      field fun next => InBody package name (fields ++ [next]) .start :=
  agrees_repeated.bind fun repeated => (agrees_fieldType repeated).bind fun type =>
    (agrees_fieldName repeated type).bind fun _ => (agrees_fieldNumber _).bind fun _ =>
    (agrees_fieldEnd _).bind fun _ => agrees_pure fun _ _ hstate => hstate

/-- A round of the loop over the fields agrees. -/
theorem agrees_oneMoreField (fields : List Field) :
    Agrees allowRedefinition
      (fun cursor state => InBody package name fields .start cursor state ∧
        cursor.peek.isReserved "\x7d" = false)
      (oneMoreField fields) fun next => InBody package name next .start :=
  agrees_field.bind fun _ => agrees_pure fun _ _ hstate => hstate

end

/-! ## Messages -/

/-- The state after a message. -/
def AfterMessage (package : String) (cursor : Cursor) (state : State) : Prop :=
  state = .nextMessage ⟨package, cursor.declared⟩

/-- The body of a message agrees. -/
theorem agrees_messageBody (package : String) (name : Token) :
    Agrees allowRedefinition (InBody package name [] .start) (messageBody name)
      fun _ => AfterMessage package := by
  intro cursor state hstate result next hrun
  obtain ⟨fields, final, hrounds, hend⟩ :=
    isRound_oneMoreField.untilEaten_cases (·.isReserved "\x7d") [] cursor
  obtain ⟨later, rfl, hresume⟩ := agrees_loopRun agrees_oneMoreField hrounds hstate
  rw [hresume]
  rcases hend with ⟨hclose, hend⟩ | ⟨hclose, error, after, hround, hend⟩
  · have hstep : Step allowRedefinition (.messageBody ⟨package, final.declared⟩ name fields .start)
        final.peek (closeMessage ⟨package, final.declared⟩ name fields).1
        (closeMessage ⟨package, final.declared⟩ name fields).2 := by
      rw [Token.eq_reserved_of_isReserved hclose]
      exact .messageClose ..
    rw [messageBody, Rule.fields, run_bind_of_ok hend] at hrun
    cases hrun
    exact ⟨_, rfl, Cursor.resume_of_step hstep⟩
  · rw [messageBody, Rule.fields, run_bind_of_error hend] at hrun
    cases hrun
    exact agrees_oneMoreField _ _ _ ⟨rfl, hclose⟩ _ _ hround

/-- What the name of a message does. -/
theorem run_messageName (cursor : Cursor) :
    (messageName allowRedefinition).run cursor =
      if cursor.peek.kind = .identifier then
        if !allowRedefinition && cursor.declared.contains cursor.peek.content then
          some (.error ⟨.duplicateMessage, cursor.peek, .message⟩, cursor.advance)
        else some (.ok cursor.peek, cursor.advance)
      else some (.error (.unexpected .message cursor.peek), cursor) := by
  have hcheck (result : Except ParseError Unit)
      (hresult : (if !allowRedefinition && cursor.declared.contains cursor.peek.content then
        .error ⟨.duplicateMessage, cursor.peek, .message⟩ else .ok ()) = result) :
      (newName allowRedefinition cursor.peek).run cursor.advance = some (result, cursor.advance) :=
    congrArg (fun result => some (result, cursor.advance)) hresult
  have hname := run_expect (·.kind = .identifier) .message cursor
  by_cases hkind : cursor.peek.kind = .identifier
  · rw [if_pos (decide_eq_true hkind)] at hname
    rw [messageName, run_bind_of_ok hname, if_pos hkind]
    split
    · next hknown => rw [run_bind_of_error (hcheck _ (if_pos hknown))]
    · next hknown => rw [run_bind_of_ok (hcheck _ (if_neg hknown))]; rfl
  · rw [if_neg fun htest => hkind (of_decide_eq_true htest)] at hname
    rw [messageName, run_bind_of_error hname, if_neg hkind]

/-- The name of a message agrees. -/
theorem agrees_messageName (package : String) :
    Agrees allowRedefinition (fun cursor state => state = .messageName ⟨package, cursor.declared⟩)
      (messageName allowRedefinition)
      fun name cursor state => state = .messageOpen ⟨package, cursor.declared⟩ name := by
  rintro cursor _ rfl result next hrun
  rw [run_messageName] at hrun
  split_ifs at hrun with hkind hknown
  · cases hrun
    refine Cursor.resume_of_refuses ?_
    rw [Refuses, if_neg (by simp [hkind]), State.advance, if_pos hkind, if_pos hknown]
  · cases hrun
    refine ⟨_, rfl, Cursor.resume_of_silent_step (advance_eq_ok_iff.1 ?_)⟩
    rw [State.advance, if_pos hkind, if_neg hknown]
    rfl
  · cases hrun
    exact Cursor.resume_of_refuses (.of_unexpected rfl (if_neg hkind))

/-- The state where a message is due: after the package clause, or after another message where the
word `message` comes next. -/
def BeforeMessage (package : String) (cursor : Cursor) (state : State) : Prop :=
  (state = .firstMessage package ∧ cursor.declared = .empty) ∨
    AfterMessage package cursor state ∧ cursor.peek.isReserved "message" = true

/-- A message agrees. -/
theorem agrees_message (package : String) :
    Agrees allowRedefinition (BeforeMessage package) (message allowRedefinition)
      fun _ => AfterMessage package := by
  have hword : Agrees allowRedefinition (BeforeMessage package)
      (expect (·.isReserved "message") .message)
      fun _ cursor state => state = .messageName ⟨package, cursor.declared⟩ := by
    refine agrees_expect ?_ ?_
    · rintro cursor _ (⟨rfl, hdeclared⟩ | ⟨rfl, -⟩) htest
      · refine ⟨.messageName ⟨package, .empty⟩, ?_, by rw [← hdeclared]; rfl⟩
        rw [Token.eq_reserved_of_isReserved htest]
        exact .firstMessage ..
      · rw [Token.eq_reserved_of_isReserved htest]
        exact ⟨_, .nextMessage .., rfl⟩
    · rintro cursor _ (⟨rfl, -⟩ | ⟨rfl, hnext⟩) htest
      · exact .of_unexpected rfl (if_neg (by simp [htest]))
      · cases htest.symm.trans hnext
  have hopen (name : Token) : Agrees allowRedefinition
      (fun cursor state => state = .messageOpen ⟨package, cursor.declared⟩ name)
      (expect (·.isReserved "\x7b") .message) fun _ => InBody package name [] .start := by
    refine agrees_expect ?_ ?_
    · rintro cursor _ rfl htest
      rw [Token.eq_reserved_of_isReserved htest]
      exact ⟨_, .messageOpen .., rfl⟩
    · rintro cursor _ rfl htest
      exact .of_unexpected rfl (if_neg (by simp [htest]))
  exact hword.bind fun _ => (agrees_messageName package).bind fun name =>
    (hopen name).bind fun _ => agrees_messageBody package name

/-- A round of the loop over the messages agrees. -/
theorem agrees_oneMoreMessage (package : String) (value : Unit) :
    Agrees allowRedefinition
      (fun cursor state => AfterMessage package cursor state ∧
        decide (cursor.peek.kind = .endOfInput) = false)
      (oneMoreMessage allowRedefinition value) fun _ => AfterMessage package := by
  have hword : Agrees allowRedefinition
      (fun cursor state => AfterMessage package cursor state ∧
        decide (cursor.peek.kind = .endOfInput) = false)
      messageWord fun _ => BeforeMessage package := by
    refine agrees_look (fun cursor state hstate hvalue => ?_) ?_
    · split_ifs at hvalue with hnext
      exact .inr ⟨hstate.1, hnext⟩
    · rintro cursor _ error ⟨rfl, hkind⟩ herror
      split_ifs at herror with hnext
      cases herror
      rw [Refuses, if_neg (of_decide_eq_false hkind)]
      exact if_neg hnext
  exact hword.bind fun _ => agrees_message package

/-! ## Schemas -/

/-- The package clause agrees. -/
theorem agrees_package :
    Agrees allowRedefinition (fun cursor state => state = .start ∧ cursor.declared = .empty) package
      fun name cursor state => state = .firstMessage name ∧ cursor.declared = .empty := by
  have hword : Agrees allowRedefinition
      (fun cursor state => state = .start ∧ cursor.declared = .empty)
      (expect (·.isReserved "package") .package)
      fun _ cursor state => state = .packageName ∧ cursor.declared = .empty := by
    refine agrees_expect ?_ ?_
    · rintro cursor _ ⟨rfl, hdeclared⟩ htest
      rw [Token.eq_reserved_of_isReserved htest]
      exact ⟨_, .package _, rfl, hdeclared⟩
    · rintro cursor _ ⟨rfl, -⟩ htest
      exact .of_unexpected rfl (if_neg (by simp [htest]))
  have hname : Agrees allowRedefinition
      (fun cursor state => state = .packageName ∧ cursor.declared = .empty)
      (expect (·.kind = .identifier) .package)
      fun name cursor state => state = .packageEnd name.content ∧ cursor.declared = .empty := by
    refine agrees_expect ?_ ?_
    · rintro cursor _ ⟨rfl, hdeclared⟩ htest
      rw [Token.eq_identifier_of_kind (of_decide_eq_true htest)]
      exact ⟨_, .packageName _, rfl, hdeclared⟩
    · rintro cursor _ ⟨rfl, -⟩ htest
      exact .of_unexpected rfl (if_neg (of_decide_eq_false htest))
  have hend (name : String) : Agrees allowRedefinition
      (fun cursor state => state = .packageEnd name ∧ cursor.declared = .empty)
      (expect (·.isReserved ";") .package)
      fun _ cursor state => state = .firstMessage name ∧ cursor.declared = .empty := by
    refine agrees_expect ?_ ?_
    · rintro cursor _ ⟨rfl, hdeclared⟩ htest
      rw [Token.eq_reserved_of_isReserved htest]
      exact ⟨_, .packageEnd .., rfl, hdeclared⟩
    · rintro cursor _ ⟨rfl, -⟩ htest
      exact .of_unexpected rfl (if_neg (by simp [htest]))
  exact hword.bind fun _ => hname.bind fun name => (hend name.content).bind fun _ =>
    agrees_pure fun _ _ hstate => hstate

/-- `Concludes allow before rule` says that the rule gives what the transitions give, if at the call
the place and the state are related by `before`. -/
def Concludes (allowRedefinition : Bool) (before : Cursor → State → Prop) (rule : Rule Schema) :
    Prop :=
  ∀ cursor state, before cursor state → ∀ result next, rule.run cursor = some (result, next) →
    cursor.resume allowRedefinition state = ⟨next.events, result⟩

/-- A rule that agrees is concluded by one that does. -/
theorem Agrees.conclude {rule : Rule α} {next : α → Rule Schema}
    {middle : α → Cursor → State → Prop} (h : Agrees allowRedefinition before rule middle)
    (hnext : ∀ value, Concludes allowRedefinition (middle value) (next value)) :
    Concludes allowRedefinition before (rule >>= next) := by
  intro cursor state hbefore result last hrun
  rcases run_bind_eq_some hrun with ⟨error, rfl, hfirst⟩ | ⟨value, place, hfirst, hsecond⟩
  · exact h cursor state hbefore _ _ hfirst
  · obtain ⟨later, hmiddle, hresume⟩ := h cursor state hbefore _ _ hfirst
    rw [hresume]
    exact hnext value place later hmiddle _ _ hsecond

/-- The messages after the first one conclude a schema. -/
theorem concludes_messages (package : String) :
    Concludes allowRedefinition (AfterMessage package)
      (messages allowRedefinition >>= fun _ => declared package) := by
  intro cursor state hstate result next hrun
  obtain ⟨value, final, hrounds, hend⟩ :=
    (isRound_oneMoreMessage allowRedefinition).untilEaten_cases (·.kind = .endOfInput) () cursor
  obtain ⟨later, rfl, hresume⟩ := agrees_loopRun (agrees_oneMoreMessage package) hrounds hstate
  rw [hresume]
  rcases hend with ⟨hkind, hend⟩ | ⟨hkind, error, after, hround, hend⟩
  · rw [messages, run_bind_of_ok hend] at hrun
    cases hrun
    exact Cursor.resume_of_end (of_decide_eq_true hkind) _
  · rw [messages, run_bind_of_error hend] at hrun
    cases hrun
    exact agrees_oneMoreMessage package value _ _ ⟨rfl, hkind⟩ _ _ hround

/-- A run by recursive descent ends with what the tokens are read as. -/
theorem run_schema (allowRedefinition : Bool) (tokens : List Token) :
    ∃ last, (schema allowRedefinition).run (.start tokens) =
        some ((Schema.ofTokens allowRedefinition tokens).result, last) ∧
      last.events = (Schema.ofTokens allowRedefinition tokens).events := by
  have hconcludes : Concludes allowRedefinition
      (fun cursor state => state = .start ∧ cursor.declared = .empty) (schema allowRedefinition) :=
    agrees_package.conclude fun package => Agrees.conclude
      (fun cursor state hstate => agrees_message package cursor state (.inl hstate)) fun _ =>
      concludes_messages package
  obtain ⟨result, last, hrun⟩ := ends_schema allowRedefinition (.start tokens)
  have hresume : Schema.ofTokens allowRedefinition tokens = ⟨last.events, result⟩ :=
    hconcludes (.start tokens) .start ⟨rfl, rfl⟩ _ _ hrun
  rw [hresume]
  exact ⟨last, hrun, rfl⟩

/-- What a run gives, with what it reports, or nothing if it does not end. -/
def outcome (rule : Rule α) (cursor : Cursor) : Option (Except ParseError α × List Event) :=
  (rule.run cursor).map fun (result, last) => (result, last.events)

/-- A run by recursive descent gives what the tokens are read as. -/
theorem outcome_schema (allowRedefinition : Bool) (tokens : List Token) :
    (schema allowRedefinition).outcome (.start tokens) =
      some ((Schema.ofTokens allowRedefinition tokens).result,
        (Schema.ofTokens allowRedefinition tokens).events) := by
  obtain ⟨last, hrun, hevents⟩ := run_schema allowRedefinition tokens
  rw [outcome, hrun, ← hevents]
  rfl

/-- The rules do not look past a token that ends the input, and where the list ends they look at
such a token. -/
theorem outcome_schema_at_end (allowRedefinition : Bool) (before : List Token) :
    (∀ (last : Token) (after : List Token), last.kind = .endOfInput →
      (schema allowRedefinition).outcome (.start (before ++ [last] ++ after)) =
        (schema allowRedefinition).outcome (.start (before ++ [last]))) ∧
    (schema allowRedefinition).outcome (.start (endedInput before)) =
      (schema allowRedefinition).outcome (.start before) := by
  constructor
  · intro last after hlast
    rw [outcome_schema, outcome_schema, Schema.ofTokens_append_end _ before hlast after]
  · rw [outcome_schema, outcome_schema, Schema.ofTokens_endedInput]

end Rule

/-- How far the rules of the grammar move the cursor, and that they end. A field that is read takes
three to six tokens. A message that is read takes three tokens before its fields, the tokens of its
fields, and a closing brace. None of these tokens ends the input. A run stands at most at the first
end of the input (`index_le`), and the loop over the messages goes at most one past it. Both loops
end wherever they are. So a run ends at most one past the first end of the input, with a schema or
an error, which is what the tokens are read as (`schema`). -/
structure ParserProgress (allowRedefinition : Bool) (tokens : List Token) : Prop where
  field : ∀ cursor value next, Rule.field.run cursor = some (.ok value, next) →
    ∃ read, cursor.Reads read next ∧ 3 ≤ read.length ∧ read.length ≤ 6
  message : ∀ cursor next, (Rule.message allowRedefinition).run cursor = some (.ok (), next) →
    ∃ (head : List Token) (body last : Cursor) (name close : Token)
        (parts : List (Field × List Token)),
      cursor.Reads head body ∧ Rule.FieldRun body parts last ∧
        next.declared = last.declared.insert ⟨name.content, parts.map Prod.fst⟩ ∧
        cursor.Reads (head ++ (parts.map Prod.snd).flatten ++ [close]) next ∧
        next.index = cursor.index + 4 + (parts.map Prod.snd).flatten.length
  index_le : ∀ cursor : Cursor, cursor.Reached allowRedefinition tokens →
    cursor.index ≤ firstEnd tokens
  messages_index_le : ∀ (cursor : Cursor) result next, cursor.Reached allowRedefinition tokens →
    (Rule.messages allowRedefinition).run cursor = some (result, next) →
    next.index ≤ firstEnd tokens + 1
  fields_ends : ∀ fields, (Rule.untilEaten (·.isReserved "\x7d") Rule.oneMoreField fields).Ends
  messages_ends : (Rule.messages allowRedefinition).Ends
  schema : ∃ last, (Rule.schema allowRedefinition).run (.start tokens) =
      some ((Schema.ofTokens allowRedefinition tokens).result, last) ∧
    last.events = (Schema.ofTokens allowRedefinition tokens).events ∧
    last.index ≤ firstEnd tokens + 1

/-- The parser makes progress and ends on every token list. -/
theorem parser_progresses_and_ends (allowRedefinition : Bool) (tokens : List Token) :
    ParserProgress allowRedefinition tokens where
  field _ _ _ hrun := Rule.progresses_field.exists_reads Rule.takes_field hrun
  message cursor next hrun := by
    obtain ⟨head, body, last, name, close, parts, hlength, hhead, hparts, hread, hdeclared⟩ :=
      Rule.exists_fieldRun_of_message hrun
    refine ⟨head, body, last, name, close, parts, hhead, hparts, hdeclared, hread, ?_⟩
    have hindex := hread.index_eq
    simp only [List.length_append, List.length_singleton, hlength] at hindex
    omega
  index_le cursor hreached := by
    obtain ⟨read, hread⟩ := hreached.exists_reads
    exact hread.index_le_firstEnd (Nat.zero_le _)
  messages_index_le cursor result next hreached hrun := by
    obtain ⟨read, hread⟩ := hreached.exists_reads
    have hstops := Rule.stopsAtEnd_messages allowRedefinition _ _ _ hrun
    rw [hread.tokens_eq] at hstops
    exact hstops (hread.index_le_firstEnd (Nat.zero_le _))
  fields_ends := Rule.isRound_oneMoreField.ends_untilEaten _
  messages_ends := Rule.ends_messages allowRedefinition
  schema := by
    obtain ⟨last, hrun, hevents⟩ := Rule.run_schema allowRedefinition tokens
    exact ⟨last, hrun, hevents,
      Rule.stopsAtEnd_schema allowRedefinition _ _ _ hrun (Nat.zero_le _)⟩

/-- The tokens of a message without its closing brace. -/
def unterminatedBody : List Token :=
  [.reserved "package" 1, ⟨"p", .identifier, 1⟩, .reserved ";" 1, .reserved "message" 2,
    ⟨"M", .identifier, 2⟩, .reserved "\x7b" 2, .reserved "bool" 3, ⟨"a", .identifier, 3⟩,
    .reserved ";" 3]

/-- The field of the message is read, and the run ends where the next type is due. A run over no
tokens ends at once. -/
theorem unterminatedBody_ends :
    (∃ next, Rule.field.run ⟨unterminatedBody, 6, .empty, []⟩ =
        some (.ok ⟨"a", .primitive .bool, false, "bool"⟩, next) ∧
      ∃ read, Cursor.Reads ⟨unterminatedBody, 6, .empty, []⟩ read next ∧
        3 ≤ read.length ∧ read.length ≤ 6) ∧
    (∃ last, (Rule.schema true).run (.start unterminatedBody) =
        some (.error ⟨.unexpectedEnd, .endOfInput, .type⟩, last) ∧
      last.index ≤ 10) ∧
    ∃ last, (Rule.schema true).run (.start []) =
        some (.error ⟨.unexpectedEnd, .endOfInput, .package⟩, last) ∧
      last.index ≤ 1 := by
  have hprogress := parser_progresses_and_ends true unterminatedBody
  obtain ⟨last, hrun, -, hindex⟩ := hprogress.schema
  obtain ⟨first, hempty, -, hstart⟩ := (parser_progresses_and_ends true []).schema
  exact ⟨⟨_, rfl, hprogress.field _ _ _ rfl⟩, ⟨last, hrun, hindex⟩, first, hempty, hstart⟩

end SchemaCompiler
