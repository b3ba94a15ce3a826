import Mathlib.Data.Fintype.EquivFin
import SchemaCompiler.Options
import SchemaCompiler.Proofs.Parsing

/-!
# The token that an error names

A parse error names the first token with which success becomes impossible. Read
`parse_error_names_first_impossible_token` last: the tokens before the named one are the start of
some schema, and every token list that goes on with the named one fails with the same error.

Two facts carry this. From every state transitions lead to a state in which the input may end
(`State.completable`), so whatever has been read without an error is the start of a schema. And a
run looks at one token at a time, so the refusal of a token (`State.Refuses`) depends only on the
tokens before it.
-/

namespace SchemaCompiler

/-- The tokens that the parser sees: those of the list and, after them, the end of the input. -/
def endedInput (tokens : List Token) : List Token :=
  tokens ++ [.endOfInput]

/-- The tokens are the start of a token list that is read as a schema. -/
def Viable (allowRedefinition : Bool) (read : List Token) : Prop :=
  ∃ (more : List Token) (schema : Schema),
    (Schema.ofTokens allowRedefinition (read ++ more)).result = .ok schema

namespace State

variable {allowRedefinition : Bool}

/-! ## Refused tokens -/

/-- The parser meets the token in the state and fails with the error. -/
def Refuses (allowRedefinition : Bool) (state : State) (token : Token) (error : ParseError) :
    Prop :=
  if token.kind = .endOfInput then state.finish token = .error error
  else state.advance allowRedefinition token = .error error

/-- Where a type is due, the error is at a token that names none. -/
theorem map_readType_eq_error {α : Type} {declared : Schema} {repeated : Bool} {token : Token}
    {after : FieldPlace → α} {error : ParseError}
    (h : (readType declared repeated token).map after = .error error) :
    FieldType.ofToken? declared.messages token = none ∧ error = ⟨.unknownType, token, .type⟩ := by
  unfold readType at h
  split at h
  · cases h
  · next hnone =>
    cases h
    exact ⟨hnone, rfl⟩

/-- In the body of a message a token is refused because it has no place in the grammar, or because
it stands where a type is due and names none. -/
theorem advanceBody_eq_error {declared : Schema} {name token : Token} {fields : List Field}
    {place : FieldPlace} {error : ParseError}
    (h : advanceBody declared name fields place token = .error error) :
    error = unexpected (.messageBody declared name fields place) token ∨
      FieldType.ofToken? declared.messages token = none ∧ error = ⟨.unknownType, token, .type⟩ := by
  cases place with
  | start =>
      simp only [advanceBody] at h
      split_ifs at h
      exact .inr (map_readType_eq_error h)
  | afterRepeated => exact .inr (map_readType_eq_error h)
  | afterType | afterName | afterEquals | afterNumber =>
      simp only [advanceBody] at h
      split_ifs at h
      cases h
      exact .inl rfl

/-- A token is refused because it has no place in the grammar, because it names no type in the body
of a message, or because it names a message again and redefinitions are not allowed. -/
theorem advance_eq_error {state : State} {token : Token} {error : ParseError}
    (h : state.advance allowRedefinition token = .error error) :
    error = state.unexpected token ∨
      (∃ declared name fields place, state = .messageBody declared name fields place ∧
        FieldType.ofToken? declared.messages token = none ∧
        error = ⟨.unknownType, token, .type⟩) ∨
      (∃ declared, state = .messageName declared ∧ allowRedefinition = false ∧
        declared.messages.contains token.content = true ∧
        error = ⟨.duplicateMessage, token, .message⟩) := by
  cases state with
  | messageName declared =>
      simp only [advance] at h
      split_ifs at h with hname hknown
      · cases h
        simp only [Bool.and_eq_true, Bool.not_eq_true'] at hknown
        exact .inr (.inr ⟨declared, rfl, hknown.1, hknown.2, rfl⟩)
      · cases h
        exact .inl rfl
  | messageBody declared name fields place =>
      rcases advanceBody_eq_error h with hunexpected | ⟨hnone, herror⟩
      · exact .inl hunexpected
      · exact .inr (.inl ⟨declared, name, fields, place, rfl, hnone, herror⟩)
  | start | packageName | packageEnd | firstMessage | nextMessage | messageOpen =>
      simp only [advance] at h
      split_ifs at h
      cases h
      exact .inl rfl

/-- An error at the end of the input is at the token that ends it. -/
theorem finish_eq_error {state : State} {token : Token} {error : ParseError}
    (h : state.finish token = .error error) : error = state.unexpected token := by
  cases state <;> cases h <;> rfl

/-- A token is refused because it has no place in the grammar, or, if it does not end the input,
because it names no type or names a message again. -/
theorem Refuses.error_eq {state : State} {token : Token} {error : ParseError}
    (h : Refuses allowRedefinition state token error) :
    error = state.unexpected token ∨
      token.kind ≠ .endOfInput ∧ error = ⟨.unknownType, token, .type⟩ ∨
      token.kind ≠ .endOfInput ∧ allowRedefinition = false ∧
        error = ⟨.duplicateMessage, token, .message⟩ := by
  unfold Refuses at h
  split at h
  · exact .inl (finish_eq_error h)
  · next hkind =>
    rcases advance_eq_error h with herror | ⟨_, _, _, _, -, -, herror⟩ | ⟨_, -, hallow, -, herror⟩
    · exact .inl herror
    · exact .inr (.inl ⟨hkind, herror⟩)
    · exact .inr (.inr ⟨hkind, hallow, herror⟩)

/-- The error names the refused token. -/
theorem Refuses.token_eq {state : State} {token : Token} {error : ParseError}
    (h : Refuses allowRedefinition state token error) : error.token = token := by
  rcases h.error_eq with rfl | ⟨-, rfl⟩ | ⟨-, -, rfl⟩ <;> rfl

/-- A run ends at a refused token, whatever stands after it. -/
theorem Refuses.run_cons {state : State} {token : Token} {error : ParseError}
    (h : Refuses allowRedefinition state token error) (rest : List Token) :
    (state.run allowRedefinition (token :: rest)).result = .error error := by
  unfold Refuses at h
  rw [run]
  split
  · next hkind =>
    rw [if_pos hkind] at h
    exact h
  · next hkind =>
    rw [if_neg hkind] at h
    rw [h]
    rfl

/-- A run that fails takes transitions up to a token that is refused. -/
theorem exists_refuses_of_run {state : State} {tokens : List Token} {error : ParseError}
    (h : (state.run allowRedefinition tokens).result = .error error) :
    ∃ read token rest next events, endedInput tokens = read ++ token :: rest ∧
      Steps allowRedefinition state read next events ∧
      Refuses allowRedefinition next token error := by
  induction tokens generalizing state with
  | nil => exact ⟨[], .endOfInput, [], state, [], rfl, .refl state, h⟩
  | cons token rest ih =>
      rw [run] at h
      split at h
      · next hkind =>
        refine ⟨[], token, endedInput rest, state, [], rfl, .refl state, ?_⟩
        rw [Refuses, if_pos hkind]
        exact h
      · next hkind =>
        split at h
        · next next events hadvance =>
          obtain ⟨read, refused, after, last, more, htokens, hsteps, hrefuses⟩ := ih h
          exact ⟨token :: read, refused, after, last, events ++ more,
            congrArg (token :: ·) htokens, .cons (advance_eq_ok_iff.1 hadvance) hsteps, hrefuses⟩
        · next refusal hadvance =>
          refine ⟨[], token, endedInput rest, state, [], rfl, .refl state, ?_⟩
          obtain rfl : refusal = error := Except.error.inj h
          rw [Refuses, if_neg hkind, hadvance]

/-! ## Every state can be completed -/

/-- Transitions lead from the state to one in which the input may end. -/
def Completable (allowRedefinition : Bool) (state : State) : Prop :=
  ∃ more schema events, Steps allowRedefinition state more (.nextMessage schema) events

/-- A state that a transition leads to a completable one from is completable. -/
theorem Completable.of_step {state next : State} {token : Token} {events : List Event}
    (hstep : Step allowRedefinition state token next events)
    (h : Completable allowRedefinition next) : Completable allowRedefinition state := by
  obtain ⟨more, schema, further, hsteps⟩ := h
  exact ⟨token :: more, schema, events ++ further, .cons hstep hsteps⟩

/-- A message can be closed where a field may start. -/
theorem completable_fieldStart (declared : Schema) (name : Token) (fields : List Field) :
    Completable allowRedefinition (.messageBody declared name fields .start) :=
  .of_step (.messageClose declared name fields 1) ⟨[], _, [], .refl _⟩

/-- A field can be ended after its name. -/
theorem completable_afterName (declared : Schema) (name : Token) (fields : List Field)
    (field : Field) :
    Completable allowRedefinition (.messageBody declared name fields (.afterName field)) :=
  .of_step (.fieldEnd declared name fields field 1) (completable_fieldStart _ _ _)

/-- A field can be ended after its number. -/
theorem completable_afterNumber (declared : Schema) (name : Token) (fields : List Field)
    (field : Field) :
    Completable allowRedefinition (.messageBody declared name fields (.afterNumber field)) :=
  .of_step (.numberedFieldEnd declared name fields field 1) (completable_fieldStart _ _ _)

/-- A field can be named after its type. -/
theorem completable_afterType (declared : Schema) (name : Token) (fields : List Field)
    (repeated : Bool) (type : FieldType) :
    Completable allowRedefinition (.messageBody declared name fields (.afterType repeated type)) :=
  .of_step (.fieldName declared name fields repeated type ⟨"x", 1⟩) (completable_afterName _ _ _ _)

/-- The body of a message can be completed from every place. -/
theorem completable_messageBody (declared : Schema) (name : Token) (fields : List Field)
    (place : FieldPlace) :
    Completable allowRedefinition (.messageBody declared name fields place) := by
  cases place with
  | start => exact completable_fieldStart _ _ _
  | afterRepeated =>
      have hbool : FieldType.ofToken? declared.messages (.reserved "bool" 1) =
          some (.primitive .bool) := rfl
      exact .of_step (.fieldRepeatedType declared name fields _ _ hbool)
        (completable_afterType _ _ _ _ _)
  | afterType repeated type => exact completable_afterType _ _ _ _ _
  | afterName field => exact completable_afterName _ _ _ _
  | afterEquals field =>
      exact .of_step (.fieldNumber declared name fields field ⟨"0", 1⟩)
        (completable_afterNumber _ _ _ _)
  | afterNumber field => exact completable_afterNumber _ _ _ _

/-- Some name is not known to a table. -/
theorem exists_unknown_name (table : MessageTable) : ∃ name, table.contains name = false := by
  obtain ⟨name, hname⟩ := Infinite.exists_notMem_finset table.index.keys.toFinset
  refine ⟨name, Bool.eq_false_iff.2 fun hknown => hname ?_⟩
  rw [List.mem_toFinset, Std.ExtTreeMap.mem_keys]
  exact hknown

/-- A message can be given a name that is not known, so no refusal of redefinitions stands in the
way of its completion. -/
theorem completable_messageName (declared : Schema) :
    Completable allowRedefinition (.messageName declared) := by
  obtain ⟨name, hname⟩ := exists_unknown_name declared.messages
  exact .of_step (.messageName declared ⟨name, 1⟩ fun _ => hname)
    (.of_step (.messageOpen declared _ 1) (completable_messageBody _ _ _ _))

/-- Whatever has been read, the input can go on so that it is read as a schema. -/
theorem completable (allowRedefinition : Bool) (state : State) :
    Completable allowRedefinition state := by
  have hfirst (package : String) : Completable allowRedefinition (.firstMessage package) :=
    .of_step (.firstMessage package 1) (completable_messageName _)
  have hend (package : String) : Completable allowRedefinition (.packageEnd package) :=
    .of_step (.packageEnd package 1) (hfirst package)
  have hname : Completable allowRedefinition .packageName :=
    .of_step (.packageName ⟨"p", 1⟩) (hend "p")
  cases state with
  | start => exact .of_step (.package 1) hname
  | packageName => exact hname
  | packageEnd package => exact hend package
  | firstMessage package => exact hfirst package
  | nextMessage declared => exact ⟨[], declared, [], .refl _⟩
  | messageName declared => exact completable_messageName declared
  | messageOpen declared name =>
      exact .of_step (.messageOpen declared name 1) (completable_messageBody _ _ _ _)
  | messageBody declared name fields place => exact completable_messageBody _ _ _ _

/-- Tokens that transitions lead over are the start of a schema. -/
theorem Steps.viable {read : List Token} {next : State} {events : List Event}
    (h : Steps allowRedefinition .start read next events) : Viable allowRedefinition read := by
  obtain ⟨more, schema, further, hmore⟩ := completable allowRedefinition next
  exact ⟨more, schema, run_eq_ok_iff.2
    ⟨read ++ more, [], events ++ further, by simp, trivial, h.append hmore⟩⟩

end State

/-! ## The main result -/

/-- A parse error names the first token with which success is impossible: the tokens before it are
the start of a schema, and every token list that starts with them and the named token fails with the
same error. -/
theorem parse_error_names_first_impossible_token (options : Options) (tokens : List Token)
    (error : ParseError)
    (herror : (Schema.ofTokens options.allowRedefinition tokens).result = .error error) :
    ∃ place, (endedInput tokens)[place]? = some error.token ∧
      Viable options.allowRedefinition ((endedInput tokens).take place) ∧
      ∀ more : List Token,
        (Schema.ofTokens options.allowRedefinition
          ((endedInput tokens).take (place + 1) ++ more)).result = .error error := by
  obtain ⟨read, token, rest, next, events, htokens, hsteps, hrefuses⟩ :=
    State.exists_refuses_of_run herror
  have hbefore : (read ++ token :: rest).take read.length = read := List.take_left
  have hwith : (read ++ token :: rest).take (read.length + 1) = read ++ [token] := by
    simp [List.take_append]
  rw [htokens]
  refine ⟨read.length, ?_, ?_, fun more => ?_⟩
  · rw [hrefuses.token_eq]
    simp
  · rw [hbefore]
    exact hsteps.viable
  · rw [hwith, List.append_assoc]
    -- The run passes the tokens before the refused one as it did, and ends there.
    show (State.start.run options.allowRedefinition (read ++ token :: more)).result = _
    rw [hsteps.run_append]
    exact hrefuses.run_cons more

/-- A message whose only field has no type after the word `repeated`. -/
def untypedField : List Token :=
  [.reserved "package" 1, ⟨"p", .identifier, 1⟩, .reserved ";" 1,
   .reserved "message" 2, ⟨"M", .identifier, 2⟩, .reserved "\x7b" 2,
   .reserved "repeated" 3, .reserved ";" 3, .endOfInput, .reserved "\x7d" 4]

/-- The sign that stands in the place of a type is the first token that cannot be mended. -/
theorem untypedField_fails_at_sign :
    (Schema.ofTokens Options.default.allowRedefinition untypedField).result =
      .error ⟨.unknownType, .reserved ";" 3, .type⟩ ∧
    ∃ place, (endedInput untypedField)[place]? = some (.reserved ";" 3) ∧
      Viable Options.default.allowRedefinition ((endedInput untypedField).take place) ∧
      ∀ more : List Token,
        (Schema.ofTokens Options.default.allowRedefinition
          ((endedInput untypedField).take (place + 1) ++ more)).result =
            .error ⟨.unknownType, .reserved ";" 3, .type⟩ := by
  have herror : (Schema.ofTokens Options.default.allowRedefinition untypedField).result =
      .error ⟨.unknownType, .reserved ";" 3, .type⟩ := rfl
  exact ⟨herror, parse_error_names_first_impossible_token .default untypedField _ herror⟩

end SchemaCompiler
