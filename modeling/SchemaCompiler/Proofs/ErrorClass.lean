import SchemaCompiler.Proofs.ErrorPlace
import SchemaCompiler.Proofs.GrammarPlace

/-!
# Errors by their place in the grammar

The reason of a parse error and the rule that it names are determined by the refused token and by
the place in the grammar where it stands. `parse_errors_classified_by_place` gives both for every
token list that is no schema.

At a state, `State.Refuses.classes` lists the four kinds of refusals. The states are replaced by the
places of the tokens before the refused one through `State.Steps.type_iff` and the like.
-/

namespace SchemaCompiler

/-- The parser fails at the token with the given index: the tokens before it are the start of a
schema, and with it they are not. -/
def FailsAt (allowRedefinition : Bool) (tokens : List Token) (place : Nat) : Prop :=
  Viable allowRedefinition ((endedInput tokens).take place) ∧
    ¬ Viable allowRedefinition ((endedInput tokens).take (place + 1))

/-- A token names a type: it is the word of a primitive type or the name of a declared message. -/
def NamesType (declared : List String) (token : Token) : Prop :=
  (token.kind = .reserved ∧ ∃ type : Primitive, type.word = token.content) ∨
    (token.kind = .identifier ∧ token.content ∈ declared)

/-- A token declares one of the messages that have been read again. -/
def Redeclares (read : List Token) (token : Token) : Prop :=
  token.kind = .identifier ∧ ∃ tree, NameDue tree read ∧ token.content ∈ tree.names

/-- A token other than the end of the input stands where a type is due and names none. -/
def LacksType (read : List Token) (token : Token) : Prop :=
  token.kind ≠ .endOfInput ∧ ∃ tree, TypeDue tree read ∧ ¬ NamesType tree.names token

/-- How the reason of an error and the rule that it names follow from its token and from the tokens
`read` before it. An unexpected end is at the end of the input, but not where the next message may
come. A duplicate is the name of an earlier message in the head of a message, where redefinitions
are not allowed. An unknown type stands where a type is due. Every other error is an unexpected
token. The rule is that of packages while the package clause is open, of schemas after a complete
message, of messages in the head of one, of types where a type is due, and of fields after the type
of a field. -/
structure ParseError.Classified (allowRedefinition : Bool) (read : List Token)
    (error : ParseError) : Prop where
  unexpectedEnd_iff : error.reason = .unexpectedEnd ↔ error.token.kind = .endOfInput
  unexpectedEnd_production : error.reason = .unexpectedEnd → error.production ≠ .schema
  duplicateMessage_iff :
    error.reason = .duplicateMessage ↔ allowRedefinition = false ∧ Redeclares read error.token
  duplicateMessage_production : error.reason = .duplicateMessage → error.production = .message
  unknownType_iff : error.reason = .unknownType ↔ LacksType read error.token
  unknownType_production : error.reason = .unknownType → error.production = .type
  unexpectedToken_iff :
    error.reason = .unexpectedToken ↔ error.token.kind ≠ .endOfInput ∧
      ¬ (allowRedefinition = false ∧ Redeclares read error.token) ∧ ¬ LacksType read error.token
  package_iff : error.production = .package ↔ PackageOpen read
  schema_iff : error.production = .schema ↔
    ∃ tree : SchemaTree, tree.messages ≠ [] ∧ read = tree.tokens
  message_iff : error.production = .message ↔ HeadOpen read
  type_iff : error.production = .type ↔ ∃ tree, TypeDue tree read
  field_iff : error.production = .field ↔ FieldOpen read

namespace State

variable {allowRedefinition : Bool}

/-! ## Refusals at a state -/

/-- Where a type is due, a token that does not end the input is refused because it names none. -/
theorem Refuses.of_type {declared : Schema} {name token : Token} {fields : List Field}
    {place : FieldPlace} {error : ParseError}
    (h : Refuses allowRedefinition (.messageBody declared name fields place) token error)
    (hplace : place.production = .type) (hkind : token.kind ≠ .endOfInput) :
    FieldType.ofToken? declared.messages token = none ∧ error = ⟨.unknownType, token, .type⟩ := by
  rw [Refuses, if_neg hkind] at h
  cases place with
  | start =>
      simp only [advance, advanceBody] at h
      split_ifs at h
      exact map_readType_eq_error h
  | afterRepeated => exact map_readType_eq_error h
  | afterType | afterName | afterEquals | afterNumber => cases hplace

/-- A token is refused at the end of the input, where a type is due, as the name of an earlier
message, or, at every other place, because the grammar has no such token there. -/
theorem Refuses.classes {state : State} {token : Token} {error : ParseError}
    (h : Refuses allowRedefinition state token error) :
    (token.kind = .endOfInput ∧ state.production ≠ .schema ∧ error = state.unexpected token) ∨
    (token.kind ≠ .endOfInput ∧
      (∃ declared name fields place, state = .messageBody declared name fields place ∧
        place.production = .type ∧ FieldType.ofToken? declared.messages token = none) ∧
      error = ⟨.unknownType, token, .type⟩) ∨
    (allowRedefinition = false ∧ token.kind = .identifier ∧
      (∃ declared, state = .messageName declared ∧
        declared.messages.contains token.content = true) ∧
      error = ⟨.duplicateMessage, token, .message⟩) ∨
    (token.kind ≠ .endOfInput ∧ state.production ≠ .type ∧
      (∀ declared, state = .messageName declared → token.kind ≠ .identifier) ∧
      error = state.unexpected token) := by
  by_cases hkind : token.kind = .endOfInput
  · rw [Refuses, if_pos hkind] at h
    refine .inl ⟨hkind, fun hschema => ?_, finish_eq_error h⟩
    -- After a message the input may end.
    obtain ⟨declared, rfl⟩ := eq_nextMessage_of_production hschema
    cases h
  · by_cases htype : state.production = .type
    · obtain ⟨declared, name, fields, place, rfl, hplace⟩ := eq_messageBody_of_production htype
      obtain ⟨hnone, herror⟩ := h.of_type hplace hkind
      exact .inr (.inl ⟨hkind, ⟨declared, name, fields, place, rfl, hplace, hnone⟩, herror⟩)
    · rw [Refuses, if_neg hkind] at h
      cases state with
      | messageName declared =>
          simp only [advance] at h
          split_ifs at h with hname hknown
          · obtain ⟨hallow, hcontains⟩ :
                allowRedefinition = false ∧ declared.messages.contains token.content = true := by
              simpa using hknown
            cases h
            exact .inr (.inr (.inl ⟨hallow, hname, ⟨declared, rfl, hcontains⟩, rfl⟩))
          · cases h
            exact .inr (.inr (.inr ⟨hkind, htype, fun _ _ => hname, rfl⟩))
      | messageBody declared name fields place =>
          cases place with
          | start | afterRepeated => exact absurd rfl htype
          | afterType | afterName | afterEquals | afterNumber =>
              simp only [advance, advanceBody] at h
              split_ifs at h
              cases h
              refine .inr (.inr (.inr ⟨hkind, htype, ?_, rfl⟩))
              intro other hstate
              cases hstate
      | start | packageName | packageEnd | firstMessage | nextMessage | messageOpen =>
          simp only [advance] at h
          split_ifs at h
          cases h
          refine .inr (.inr (.inr ⟨hkind, htype, ?_, rfl⟩))
          intro other hstate
          cases hstate

/-- An error names the rule of the state that refuses its token. -/
theorem Refuses.production_eq {state : State} {token : Token} {error : ParseError}
    (h : Refuses allowRedefinition state token error) : error.production = state.production := by
  rcases h.classes with ⟨-, -, rfl⟩ | ⟨-, ⟨_, _, _, _, rfl, hplace, -⟩, rfl⟩ |
    ⟨-, -, ⟨_, rfl, -⟩, rfl⟩ | ⟨-, -, -, rfl⟩
  · rfl
  · exact hplace.symm
  · rfl
  · rfl

/-- An end that is unexpected is not where the next message comes. -/
theorem Refuses.unexpectedEnd_production {state : State} {token : Token} {error : ParseError}
    (h : Refuses allowRedefinition state token error) (hreason : error.reason = .unexpectedEnd) :
    error.production ≠ .schema := by
  rw [h.production_eq]
  have hend := h.reason_eq_unexpectedEnd_iff.1 hreason
  rcases h.classes with ⟨-, hproduction, -⟩ | ⟨hkind, -⟩ | ⟨-, hkind, -⟩ | ⟨hkind, -⟩
  · exact hproduction
  · exact absurd hend hkind
  · exact absurd (hend.symm.trans hkind) (by decide)
  · exact absurd hend hkind

/-- A refusal is for a duplicate exactly when an identifier of a known message comes as a name. -/
theorem Refuses.duplicateMessage_iff {state : State} {token : Token} {error : ParseError}
    (h : Refuses allowRedefinition state token error) :
    error.reason = .duplicateMessage ↔ allowRedefinition = false ∧ token.kind = .identifier ∧
      ∃ declared, state = .messageName declared ∧
        declared.messages.contains token.content = true := by
  constructor
  · intro hreason
    rcases h.classes with ⟨hkind, -, rfl⟩ | ⟨-, -, rfl⟩ | ⟨hallow, hkind, hstate, -⟩ |
      ⟨hkind, -, -, rfl⟩
    · simp [unexpected, hkind] at hreason
    · cases hreason
    · exact ⟨hallow, hkind, hstate⟩
    · simp [unexpected, hkind] at hreason
  · rintro ⟨-, hkind, declared, rfl, -⟩
    rcases h.classes with ⟨hend, -, -⟩ | ⟨-, ⟨_, _, _, _, hstate, -⟩, -⟩ | ⟨-, -, -, rfl⟩ |
      ⟨-, -, hname, -⟩
    · exact absurd (hkind.symm.trans hend) (by decide)
    · cases hstate
    · rfl
    · exact absurd hkind (hname declared rfl)

/-- A refusal is for an unknown type exactly when a type is due and the token names none. -/
theorem Refuses.unknownType_iff {state : State} {token : Token} {error : ParseError}
    (h : Refuses allowRedefinition state token error) :
    error.reason = .unknownType ↔ token.kind ≠ .endOfInput ∧
      ∃ declared name fields place, state = .messageBody declared name fields place ∧
        place.production = .type ∧ FieldType.ofToken? declared.messages token = none := by
  constructor
  · intro hreason
    rcases h.classes with ⟨hkind, -, rfl⟩ | ⟨hkind, hstate, -⟩ | ⟨-, -, -, rfl⟩ |
      ⟨hkind, -, -, rfl⟩
    · simp [unexpected, hkind] at hreason
    · exact ⟨hkind, hstate⟩
    · cases hreason
    · simp [unexpected, hkind] at hreason
  · rintro ⟨hkind, declared, name, fields, place, rfl, hplace, -⟩
    rw [(h.of_type hplace hkind).2]

/-! ## Refusals by places -/

variable {state : State} {read : List Token} {events : List Event}

/-- A name is that of a message which the parser knows where it expects one, exactly when it is that
of a message before the word `message`. -/
theorem Steps.messageName_iff (h : Steps allowRedefinition .start read state events)
    {name : String} :
    (∃ declared, state = .messageName declared ∧ declared.messages.contains name = true) ↔
      ∃ tree, NameDue tree read ∧ name ∈ tree.names := by
  constructor
  · rintro ⟨declared, rfl, hknown⟩
    cases h.spells with
    | messageName tree line =>
        refine ⟨tree, ⟨line, rfl⟩, SchemaTree.mem_names_meaning.1 ?_⟩
        exact (tree.indexed_meaning.contains_iff name).1 hknown
  · rintro ⟨tree, hdue, hmem⟩
    refine ⟨tree.meaning, h.eq_messageName hdue, ?_⟩
    exact (tree.indexed_meaning.contains_iff name).2 (SchemaTree.mem_names_meaning.2 hmem)

/-- A token is read as no type exactly when it names none. -/
theorem ofToken?_eq_none_iff {tree : SchemaTree} {token : Token} :
    FieldType.ofToken? tree.meaning.messages token = none ↔ ¬ NamesType tree.names token := by
  have hsome {type : FieldType} :
      FieldType.ofToken? tree.meaning.messages token = some type ↔ _ :=
    FieldType.ofToken?_eq_some_iff tree.indexed_meaning
  constructor
  · rintro hnone (⟨hkind, type, hword⟩ | ⟨hkind, hmem⟩)
    · have hread := hsome.2 ⟨.primitive type token.line, ?_, rfl, trivial⟩
      · rw [hnone] at hread
        cases hread
      · rw [TypeTree.token, Token.reserved, hword, ← hkind]
    · have hread := hsome.2 ⟨.message ⟨token.content, token.line⟩,
        (Token.eq_identifier_of_kind hkind).symm, rfl, SchemaTree.mem_names_meaning.2 hmem⟩
      rw [hnone] at hread
      cases hread
  · intro hnames
    cases hread : FieldType.ofToken? tree.meaning.messages token with
    | none => rfl
    | some type =>
        obtain ⟨source, rfl, -, hscoped⟩ := hsome.1 hread
        refine absurd ?_ hnames
        cases source with
        | primitive type line => exact .inl ⟨rfl, type, rfl⟩
        | message name => exact .inr ⟨rfl, SchemaTree.mem_names_meaning.1 hscoped⟩

/-- The parser expects a type and a token names none exactly when the token stands where a type is
due and names none. -/
theorem Steps.lacksType_iff (h : Steps allowRedefinition .start read state events)
    {token : Token} :
    (token.kind ≠ .endOfInput ∧
      ∃ declared name fields place, state = .messageBody declared name fields place ∧
        place.production = .type ∧ FieldType.ofToken? declared.messages token = none) ↔
      LacksType read token := by
  refine and_congr_right fun _ => ⟨?_, ?_⟩
  · rintro ⟨declared, name, fields, place, rfl, hplace, hnone⟩
    obtain ⟨tree, rfl, hdue⟩ := h.spells.exists_typeDue hplace
    exact ⟨tree, hdue, ofToken?_eq_none_iff.1 hnone⟩
  · rintro ⟨tree, hdue, hnames⟩
    obtain ⟨name, fields, place, hstate, hplace⟩ := h.eq_messageBody hdue
    exact ⟨tree.meaning, name, fields, place, hstate, hplace, ofToken?_eq_none_iff.2 hnames⟩

/-- The refusal of a token is classified by the tokens before it. -/
theorem Refuses.classified {token : Token} {error : ParseError}
    (h : Refuses allowRedefinition state token error)
    (hsteps : Steps allowRedefinition .start read state events) :
    error.Classified allowRedefinition read := by
  obtain rfl := h.token_eq
  have hend := h.reason_eq_unexpectedEnd_iff
  have hduplicate : error.reason = .duplicateMessage ↔
      allowRedefinition = false ∧ Redeclares read error.token := by
    rw [h.duplicateMessage_iff, hsteps.messageName_iff]
    rfl
  have htype : error.reason = .unknownType ↔ LacksType read error.token :=
    h.unknownType_iff.trans hsteps.lacksType_iff
  exact {
    unexpectedEnd_iff := hend
    unexpectedEnd_production := h.unexpectedEnd_production
    duplicateMessage_iff := hduplicate
    duplicateMessage_production := fun hreason => by
      obtain ⟨-, -, declared, rfl, -⟩ := h.duplicateMessage_iff.1 hreason
      exact h.production_eq
    unknownType_iff := htype
    unknownType_production := fun hreason => by
      obtain ⟨-, declared, name, fields, place, rfl, hplace, -⟩ := h.unknownType_iff.1 hreason
      exact h.production_eq.trans hplace
    unexpectedToken_iff := by
      rw [← hduplicate, ← htype, ne_eq, ← hend]
      cases error.reason <;> decide
    package_iff := h.production_eq ▸ hsteps.spells.package_iff
    schema_iff := h.production_eq ▸ hsteps.schema_iff
    message_iff := h.production_eq ▸ hsteps.message_iff
    type_iff := h.production_eq ▸ hsteps.type_iff
    field_iff := h.production_eq ▸ hsteps.field_iff }

/-- The parser fails at the token that is refused after the tokens before it. -/
theorem Refuses.failsAt {tokens read rest : List Token} {state : State} {token : Token}
    {events : List Event} {error : ParseError} (h : Refuses allowRedefinition state token error)
    (hsteps : Steps allowRedefinition .start read state events)
    (htokens : endedInput tokens = read ++ token :: rest) :
    FailsAt allowRedefinition tokens read.length := by
  rw [FailsAt, htokens, List.take_left]
  refine ⟨hsteps.viable, ?_⟩
  rintro ⟨more, schema, hschema⟩
  rw [List.append_cons, List.take_append_of_le_length (by simp), List.take_of_length_le (by simp),
    List.append_assoc, Schema.ofTokens, hsteps.run_append] at hschema
  have hrefused := (h.run_cons more).symm.trans hschema
  cases hrefused

end State

/-! ## The main result -/

/-- What stands before other tokens of the start of a schema is one. -/
theorem Viable.of_append {allowRedefinition : Bool} {read more : List Token}
    (h : Viable allowRedefinition (read ++ more)) : Viable allowRedefinition read := by
  obtain ⟨rest, schema, hschema⟩ := h
  exact ⟨more ++ rest, schema, by rwa [← List.append_assoc]⟩

/-- Fewer of the tokens of a list are the start of a schema if more of them are. -/
theorem Viable.take_mono {allowRedefinition : Bool} {tokens : List Token} {place other : Nat}
    (h : Viable allowRedefinition (tokens.take other)) (hle : place ≤ other) :
    Viable allowRedefinition (tokens.take place) := by
  obtain ⟨more, hmore⟩ := List.take_prefix_take_left hle
  rw [← hmore] at h
  exact h.of_append

/-- The parser fails at one token only. -/
theorem FailsAt.unique {allowRedefinition : Bool} {tokens : List Token} {place other : Nat}
    (h : FailsAt allowRedefinition tokens place) (hother : FailsAt allowRedefinition tokens other) :
    other = place := by
  rcases Nat.lt_trichotomy other place with hlt | heq | hlt
  · exact absurd (h.1.take_mono hlt) hother.2
  · exact heq
  · exact absurd (hother.1.take_mono hlt) h.2

/-- Parse errors are classified by their place in the grammar: a token list that is no schema is
refused at one token, which the error names, and the reason and the rule of the error follow from
that token and from the tokens before it. -/
theorem parse_errors_classified_by_place (options : Options) (tokens : List Token)
    (error : ParseError)
    (herror : (Schema.ofTokens options.allowRedefinition tokens).result = .error error) :
    ∃ place, (∀ other, FailsAt options.allowRedefinition tokens other ↔ other = place) ∧
      (endedInput tokens)[place]? = some error.token ∧
      error.Classified options.allowRedefinition ((endedInput tokens).take place) := by
  obtain ⟨read, token, rest, state, events, htokens, hsteps, hrefuses⟩ :=
    State.exists_refuses_of_run herror
  have hfails := hrefuses.failsAt hsteps htokens
  refine ⟨read.length, fun other => ⟨hfails.unique, fun hother => hother ▸ hfails⟩, ?_, ?_⟩
  · rw [htokens, hrefuses.token_eq]
    simp
  · rw [htokens, List.take_left]
    exact hrefuses.classified hsteps

/-- A schema that declares a message again after one that uses it. -/
def redeclaredName : List Token :=
  [.reserved "package" 1, ⟨"p", .identifier, 1⟩, .reserved ";" 1,
   .reserved "message" 2, ⟨"A", .identifier, 2⟩, .reserved "\x7b" 2, .reserved "\x7d" 2,
   .reserved "message" 3, ⟨"B", .identifier, 3⟩, .reserved "\x7b" 3,
   ⟨"A", .identifier, 3⟩, ⟨"a", .identifier, 3⟩, .reserved ";" 3, .reserved "\x7d" 3,
   .reserved "message" 4, ⟨"A", .identifier, 4⟩, .reserved "\x7b" 4, .reserved "\x7d" 4]

/-- The name that is declared again stands in the head of a message. -/
theorem redeclaredName_classified :
    (Schema.ofTokens Options.default.allowRedefinition redeclaredName).result =
      .error ⟨.duplicateMessage, ⟨"A", .identifier, 4⟩, .message⟩ ∧
    ∃ place, FailsAt Options.default.allowRedefinition redeclaredName place ∧
      Redeclares ((endedInput redeclaredName).take place) ⟨"A", .identifier, 4⟩ ∧
      HeadOpen ((endedInput redeclaredName).take place) := by
  have herror : (Schema.ofTokens Options.default.allowRedefinition redeclaredName).result =
      .error ⟨.duplicateMessage, ⟨"A", .identifier, 4⟩, .message⟩ := rfl
  obtain ⟨place, hfails, -, hclass⟩ := parse_errors_classified_by_place .default _ _ herror
  exact ⟨herror, place, (hfails place).2 rfl, (hclass.duplicateMessage_iff.1 rfl).2,
    hclass.message_iff.1 rfl⟩

end SchemaCompiler
