import SchemaCompiler.Proofs.ClosedSchema
import SchemaCompiler.Proofs.FirstError

/-!
# Runs in lockstep

Two runs of the parser that read alike tokens, or the same tokens with and without redefinitions,
stay in alike states. Four comparisons are made.

* Without redefinitions a run is the same as with them until it meets a name that was declared
  before (`State.run_strict`). So redefinitions only add schemas.
* What follows the tokens of a run matters only from the states that they lead to
  (`State.run_append_congr`). No state looks past an end of the input, and all of them take the end
  of the list for one (`input_ends_at_first_end`).
* A run never looks at the line of a token. Tokens that are moved off their lines (`Token.unplaced`)
  are read as before, and an error only loses its line (`State.run_unplaced`).
* The number of a field means nothing. Schemas whose tokens agree but for numbers
  (`withoutNumbers`) are spelled by trees that agree but for numbers and lines
  (`SchemaTree.plainTokens_append`), and these mean the same (`SchemaTree.meaning_plain`).
-/

namespace SchemaCompiler

/-! ## Redefinitions -/

namespace State

/-- Without redefinitions a token is read as with them, unless it names a message again. -/
theorem advance_strict (state : State) (token : Token) :
    state.advance false token = state.advance true token ∨
      state.advance false token = .error ⟨.duplicateMessage, token, .message⟩ := by
  cases state with
  | messageName declared =>
      by_cases hname : token.kind = .identifier
      · cases hknown : declared.messages.contains token.content with
        | false => exact .inl (by simp [advance, hknown])
        | true => exact .inr (by simp [advance, hname, hknown])
      · exact .inl (by simp [advance, hname])
  | _ => exact .inl rfl

/-- Without redefinitions a run is the same as with them, unless it fails at a name that was
declared before. -/
theorem run_strict (state : State) (tokens : List Token) :
    state.run false tokens = state.run true tokens ∨
      ∃ error, (state.run false tokens).result = .error error ∧
        error.reason = .duplicateMessage := by
  induction tokens generalizing state with
  | nil => exact .inl rfl
  | cons token rest ih =>
      rw [run, run]
      split
      · exact .inl rfl
      · rcases advance_strict state token with hsame | hduplicate
        · rw [hsame]
          cases state.advance true token with
          | error error => exact .inl rfl
          | ok outcome =>
              rcases ih outcome.1 with hrest | ⟨error, herror, hreason⟩
              · exact .inl (congrArg (Logged.after outcome.2) hrest)
              · exact .inr ⟨error, herror, hreason⟩
        · rw [hduplicate]
          exact .inr ⟨_, rfl, rfl⟩

/-- With redefinitions no name is refused as declared before. -/
theorem Refuses.reason_ne_duplicateMessage {state : State} {token : Token} {error : ParseError}
    (h : Refuses true state token error) : error.reason ≠ .duplicateMessage := by
  rcases h.error_eq with rfl | ⟨-, rfl⟩ | ⟨-, hallow, -⟩
  · unfold unexpected
    split <;> simp
  · simp
  · cases hallow

end State

/-- Redefinitions only add schemas. What is read without them is read with them as the same schema,
an error that is no repeated name stays the same error, and with them no error is a repeated name.
So the two differ only where a repeated name is refused. -/
theorem redefinitions_only_add_schemas (strict lenient : Options)
    (hstrict : strict.allowRedefinition = false) (hlenient : lenient.allowRedefinition = true)
    (tokens : List Token) :
    (∀ schema, (Schema.ofTokens strict.allowRedefinition tokens).result = .ok schema →
      (Schema.ofTokens lenient.allowRedefinition tokens).result = .ok schema) ∧
    (∀ error, (Schema.ofTokens strict.allowRedefinition tokens).result = .error error →
      error.reason ≠ .duplicateMessage →
      (Schema.ofTokens lenient.allowRedefinition tokens).result = .error error) ∧
    (∀ error, (Schema.ofTokens lenient.allowRedefinition tokens).result = .error error →
      error.reason ≠ .duplicateMessage) ∧
    ((Schema.ofTokens strict.allowRedefinition tokens).result ≠
        (Schema.ofTokens lenient.allowRedefinition tokens).result →
      ∃ error, (Schema.ofTokens strict.allowRedefinition tokens).result = .error error ∧
        error.reason = .duplicateMessage) := by
  rw [hstrict, hlenient]
  have hlockstep := State.run_strict .start tokens
  refine ⟨fun schema hschema => ?_, fun error herror hreason => ?_, fun error herror => ?_,
    fun hdiffer => ?_⟩
  · rcases hlockstep with hsame | ⟨error, herror, -⟩
    · exact (congrArg Logged.result hsame).symm.trans hschema
    · rw [Schema.ofTokens, herror] at hschema
      cases hschema
  · rcases hlockstep with hsame | ⟨other, hother, hduplicate⟩
    · exact (congrArg Logged.result hsame).symm.trans herror
    · obtain rfl : other = error := Except.error.inj (hother.symm.trans herror)
      exact absurd hduplicate hreason
  · obtain ⟨read, token, rest, next, events, -, -, hrefuses⟩ := State.exists_refuses_of_run herror
    exact hrefuses.reason_ne_duplicateMessage
  · exact hlockstep.resolve_left fun hsame => hdiffer (congrArg Logged.result hsame)

/-- A message that is declared again, in a body that does not end. -/
def repeatedMessage : List Token :=
  [.reserved "package" 1, ⟨"p", .identifier, 1⟩, .reserved ";" 1,
   .reserved "message" 2, ⟨"M", .identifier, 2⟩, .reserved "\x7b" 2, .reserved "\x7d" 2,
   .reserved "message" 3, ⟨"M", .identifier, 3⟩, .reserved "\x7b" 3, .endOfInput]

/-- Without redefinitions the repeated name is refused, and with them it is not. -/
theorem repeatedMessage_refused_for_its_name_once :
    (Schema.ofTokens false repeatedMessage).result =
      .error ⟨.duplicateMessage, ⟨"M", .identifier, 3⟩, .message⟩ ∧
    ∀ error, (Schema.ofTokens true repeatedMessage).result = .error error →
      error.reason ≠ .duplicateMessage :=
  ⟨rfl, (redefinitions_only_add_schemas { allowRedefinition := false, banner := [] }
    { allowRedefinition := true, serializers := false } rfl rfl repeatedMessage).2.2.1⟩

/-! ## Ends of the input -/

/-- Token lists that every state reads alike are read alike after the same tokens. -/
theorem State.run_append_congr {allowRedefinition : Bool} {first second : List Token}
    (h : ∀ state : State, state.run allowRedefinition first = state.run allowRedefinition second)
    (state : State) (before : List Token) :
    state.run allowRedefinition (before ++ first) =
      state.run allowRedefinition (before ++ second) := by
  induction before generalizing state with
  | nil => exact h state
  | cons token before ih =>
      rw [List.cons_append, List.cons_append, run, run]
      split
      · rfl
      · cases state.advance allowRedefinition token with
        | error error => rfl
        | ok outcome => exact congrArg (Logged.after outcome.2) (ih outcome.1)

namespace Schema

/-- What stands after a token that ends the input is not read. -/
theorem ofTokens_append_end (allowRedefinition : Bool) (before : List Token) {last : Token}
    (hlast : last.kind = .endOfInput) (after : List Token) :
    ofTokens allowRedefinition (before ++ [last] ++ after) =
      ofTokens allowRedefinition (before ++ [last]) := by
  have hend (state : State) (rest : List Token) :
      state.run allowRedefinition (last :: rest) = .ofExcept (state.finish last) := by
    rw [State.run, if_pos hlast]
  rw [List.append_assoc]
  exact State.run_append_congr (fun state => (hend state after).trans (hend state []).symm) .start
    before

/-- The end of a token list is read as a token that ends the input. -/
theorem ofTokens_endedInput (allowRedefinition : Bool) (tokens : List Token) :
    ofTokens allowRedefinition (endedInput tokens) = ofTokens allowRedefinition tokens := by
  have hend (state : State) : state.run allowRedefinition [.endOfInput] =
      state.run allowRedefinition [] := rfl
  have hrun := State.run_append_congr hend .start tokens
  rwa [List.append_nil] at hrun

end Schema

/-- The input ends at its first end. What stands after a token that ends the input is not read, and
a list without such a token is read as if one followed it: schemas, errors and reports are the
same. -/
theorem input_ends_at_first_end (options : Options) (before : List Token) :
    (∀ (last : Token) (after : List Token), last.kind = .endOfInput →
      Schema.ofTokens options.allowRedefinition (before ++ [last] ++ after) =
        Schema.ofTokens options.allowRedefinition (before ++ [last])) ∧
    Schema.ofTokens options.allowRedefinition (before ++ [.endOfInput]) =
      Schema.ofTokens options.allowRedefinition before :=
  ⟨fun _ after hlast => Schema.ofTokens_append_end options.allowRedefinition before hlast after,
    Schema.ofTokens_endedInput options.allowRedefinition before⟩

/-- The start of a message, up to its opening brace. -/
def openedMessage : List Token :=
  [.reserved "package" 1, ⟨"p", .identifier, 1⟩, .reserved ";" 1,
   .reserved "message" 2, ⟨"M", .identifier, 2⟩, .reserved "\x7b" 2]

/-- A closing brace after the end of the input does not close a message. -/
theorem openedMessage_not_closed_past_end :
    (Schema.ofTokens false (openedMessage ++ [⟨"\x7d", .endOfInput, 3⟩] ++
      [.reserved "\x7d" 4, .endOfInput])).result =
        .error ⟨.unexpectedEnd, ⟨"\x7d", .endOfInput, 3⟩, .type⟩ ∧
    (Schema.ofTokens false openedMessage).result =
      .error ⟨.unexpectedEnd, .endOfInput, .type⟩ := by
  obtain ⟨hpast, hmissing⟩ := input_ends_at_first_end { allowRedefinition := false } openedMessage
  constructor
  · rw [hpast _ _ rfl]
    rfl
  · rw [← hmissing]
    rfl

/-! ## Lines -/

/-- All of a token but its line. -/
def Token.spelling (token : Token) : String × TokenKind :=
  (token.content, token.kind)

/-- The line that no text has. -/
def noLine : Int := Token.endOfInput.line

/-- The token on no line of any text. -/
def Token.unplaced (token : Token) : Token :=
  { token with line := noLine }

/-- The error at the token on no line of any text. -/
def ParseError.unplaced (error : ParseError) : ParseError :=
  { error with token := error.token.unplaced }

/-- What has been read without the line of the name of the message that is open. -/
def State.unplaced : State → State
  | .messageOpen declared name => .messageOpen declared name.unplaced
  | .messageBody declared name fields place => .messageBody declared name.unplaced fields place
  | state => state

/-- A token on no line has its content. -/
@[simp]
theorem Token.content_unplaced (token : Token) : token.unplaced.content = token.content := by
  cases token with
  | mk content kind line => rfl

/-- A token on no line has its kind. -/
@[simp]
theorem Token.kind_unplaced (token : Token) : token.unplaced.kind = token.kind := by
  cases token with
  | mk content kind line => rfl

/-- A token on no line is the reserved word that it is. -/
@[simp]
theorem Token.isReserved_unplaced (token : Token) (word : String) :
    token.unplaced.isReserved word = token.isReserved word := by
  simp [isReserved]

/-- Tokens that are spelled alike are the same on no line. -/
theorem Token.map_unplaced_of_spelling {first second : List Token}
    (h : first.map spelling = second.map spelling) : first.map unplaced = second.map unplaced := by
  have hunplaced : unplaced = (fun pair => ⟨pair.1, pair.2, noLine⟩) ∘ spelling := rfl
  rw [hunplaced, ← List.map_map, ← List.map_map, h]

/-- Errors that are the same on no line differ at most in their lines. -/
theorem ParseError.eq_of_unplaced {first second : ParseError}
    (h : first.unplaced = second.unplaced) :
    second = { first with token := { first.token with line := second.token.line } } := by
  obtain ⟨reason, ⟨content, kind, line⟩, production⟩ := first
  obtain ⟨otherReason, ⟨otherContent, otherKind, otherLine⟩, otherProduction⟩ := second
  simp only [unplaced, Token.unplaced, mk.injEq, Token.mk.injEq] at h
  obtain ⟨rfl, ⟨rfl, rfl, -⟩, rfl⟩ := h
  rfl

namespace State

variable (allowRedefinition : Bool)

/-- The state after a token, without what is reported there. -/
def next (state : State) (token : Token) : Except ParseError State :=
  (state.advance allowRedefinition token).map Prod.fst

/-- The outcome of a token without the lines in it. -/
def unplacedOutcome : Except ParseError State → Except ParseError State
  | .ok state => .ok state.unplaced
  | .error error => .error error.unplaced

/-- The result of a run does not depend on what is reported. -/
theorem result_run_cons {token : Token} (h : token.kind ≠ .endOfInput) (state : State)
    (rest : List Token) :
    (state.run allowRedefinition (token :: rest)).result =
      (state.next allowRedefinition token).bind fun following =>
        (following.run allowRedefinition rest).result := by
  rw [run, if_neg h, next]
  cases state.advance allowRedefinition token <;> rfl

/-- A type is read from a token as it is on no line. -/
theorem readType_unplaced (declared : Schema) (repeated : Bool) (token : Token) :
    readType declared repeated token.unplaced =
      (readType declared repeated token).mapError ParseError.unplaced := by
  have htype : FieldType.ofToken? declared.messages token.unplaced =
      FieldType.ofToken? declared.messages token := rfl
  unfold readType
  rw [htype]
  split <;> rfl

/-- A token in the body of a message is read as it is on no line. -/
theorem next_messageBody_unplaced (declared : Schema) (name : Token) (fields : List Field)
    (place : FieldPlace) (token : Token) :
    (messageBody declared name.unplaced fields place).next allowRedefinition token.unplaced =
      unplacedOutcome ((messageBody declared name fields place).next allowRedefinition token) := by
  cases place with
  | start =>
      simp only [next, advance, advanceBody, Token.isReserved_unplaced, readType_unplaced]
      split_ifs
      · rfl
      · rfl
      · cases readType declared false token <;> rfl
  | afterRepeated =>
      simp only [next, advance, advanceBody, readType_unplaced]
      cases readType declared true token <;> rfl
  | afterType | afterName | afterEquals | afterNumber =>
      simp only [next, advance, advanceBody, Token.kind_unplaced, Token.isReserved_unplaced]
      split_ifs <;> rfl

/-- A token is read as it is on no line. -/
theorem next_unplaced (state : State) (token : Token) :
    state.unplaced.next allowRedefinition token.unplaced =
      unplacedOutcome (state.next allowRedefinition token) := by
  cases state with
  | messageBody declared name fields place => exact next_messageBody_unplaced _ _ _ _ _ _
  | start | packageName | packageEnd | firstMessage | nextMessage | messageName | messageOpen =>
      simp only [unplaced, next, advance, Token.kind_unplaced, Token.content_unplaced,
        Token.isReserved_unplaced]
      split_ifs <;> rfl

/-- The input ends as it does on no line. -/
theorem finish_unplaced (state : State) (token : Token) :
    state.unplaced.finish token.unplaced = (state.finish token).mapError ParseError.unplaced := by
  cases state <;> rfl

/-- A run does not look at lines: on tokens that are moved off their lines it gives the same schema,
or the same error off its line. -/
theorem run_unplaced (state : State) (tokens : List Token) :
    (state.unplaced.run allowRedefinition (tokens.map Token.unplaced)).result =
      (state.run allowRedefinition tokens).result.mapError ParseError.unplaced := by
  induction tokens generalizing state with
  | nil => exact finish_unplaced state .endOfInput
  | cons token rest ih =>
      by_cases hend : token.kind = .endOfInput
      · rw [List.map_cons, run, run, if_pos hend, if_pos (token.kind_unplaced.trans hend)]
        exact finish_unplaced state token
      · rw [List.map_cons, result_run_cons _ hend, result_run_cons _ (token.kind_unplaced ▸ hend),
          next_unplaced]
        cases state.next allowRedefinition token with
        | error error => rfl
        | ok following => exact ih following

end State

/-- Tokens that are spelled alike are read as the same schema, or fail with errors that differ at
most in their lines. -/
theorem Schema.ofTokens_of_spelling (allowRedefinition : Bool) {first second : List Token}
    (h : first.map Token.spelling = second.map Token.spelling) :
    (∃ schema, (Schema.ofTokens allowRedefinition first).result = .ok schema ∧
      (Schema.ofTokens allowRedefinition second).result = .ok schema) ∨
    ∃ (error : ParseError) (line : Int),
      (Schema.ofTokens allowRedefinition first).result = .error error ∧
      (Schema.ofTokens allowRedefinition second).result =
        .error { error with token := { error.token with line } } := by
  -- Off their lines the tokens are the same, so the two runs become one.
  have hresults :
      (Schema.ofTokens allowRedefinition first).result.mapError ParseError.unplaced =
        (Schema.ofTokens allowRedefinition second).result.mapError ParseError.unplaced := by
    have hfirst := State.run_unplaced allowRedefinition .start first
    rw [Token.map_unplaced_of_spelling h] at hfirst
    exact hfirst.symm.trans (State.run_unplaced allowRedefinition .start second)
  cases hfirst : (Schema.ofTokens allowRedefinition first).result with
  | ok schema =>
      cases hsecond : (Schema.ofTokens allowRedefinition second).result with
      | ok other =>
          rw [hfirst, hsecond] at hresults
          cases hresults
          exact .inl ⟨schema, rfl, rfl⟩
      | error error =>
          rw [hfirst, hsecond] at hresults
          cases hresults
  | error error =>
      cases hsecond : (Schema.ofTokens allowRedefinition second).result with
      | ok schema =>
          rw [hfirst, hsecond] at hresults
          cases hresults
      | error other =>
          rw [hfirst, hsecond] at hresults
          have hother := ParseError.eq_of_unplaced (Except.error.inj hresults)
          exact .inr ⟨error, other.token.line, rfl, congrArg Except.error hother⟩

/-! ## Numbers of fields -/

/-- Tokens without the sign `=` and the number wherever these stand together. -/
def withoutNumbers : List Token → List Token
  | [] => []
  | [token] => [token]
  | token :: following :: rest =>
    if token.isReserved "=" ∧ following.kind = .number then withoutNumbers rest
    else token :: withoutNumbers (following :: rest)

/-- Tokens without numbers and without lines. -/
def plainTokens (tokens : List Token) : List Token :=
  (withoutNumbers tokens).map Token.unplaced

/-- The word on no line of any text. -/
def Word.unplaced (word : Word) : Word := ⟨word.text, noLine⟩

/-- The type without its line. -/
def TypeTree.plain : TypeTree → TypeTree
  | primitive type _ => .primitive type noLine
  | message name => .message name.unplaced

/-- The field without its number and without lines. -/
def FieldTree.plain (tree : FieldTree) : FieldTree where
  repeatedLine := tree.repeatedLine.map fun _ => noLine
  type := tree.type.plain
  name := tree.name.unplaced
  number := none
  endLine := noLine

/-- The message without numbers and lines. -/
def MessageTree.plain (tree : MessageTree) : MessageTree where
  keywordLine := noLine
  name := tree.name.unplaced
  openLine := noLine
  fields := tree.fields.map FieldTree.plain
  closeLine := noLine

/-- The schema without numbers and lines. -/
def SchemaTree.plain (tree : SchemaTree) : SchemaTree where
  packageLine := noLine
  package := tree.package.unplaced
  packageEndLine := noLine
  messages := tree.messages.map MessageTree.plain

/-- A token that is no sign `=` is kept. -/
theorem plainTokens_cons {token : Token} (h : token.isReserved "=" = false) (rest : List Token) :
    plainTokens (token :: rest) = token.unplaced :: plainTokens rest := by
  cases rest with
  | nil => rfl
  | cons following rest => simp [plainTokens, withoutNumbers, h]

/-- The number of a field is dropped. -/
theorem plainTokens_numberTokens (tree : FieldTree) (rest : List Token) :
    plainTokens (tree.numberTokens ++ rest) = plainTokens rest := by
  unfold FieldTree.numberTokens
  split
  · rfl
  · rfl

/-- Where numbers and lines can be dropped from each tree of a list, they can be dropped from the
whole. -/
theorem plainTokens_flatMap_append {Tree : Type} {tokens : Tree → List Token} {plain : Tree → Tree}
    (h : ∀ tree rest, plainTokens (tokens tree ++ rest) = tokens (plain tree) ++ plainTokens rest)
    (trees : List Tree) (rest : List Token) :
    plainTokens (trees.flatMap tokens ++ rest) =
      (trees.map plain).flatMap tokens ++ plainTokens rest := by
  induction trees with
  | nil => rfl
  | cons tree trees ih =>
      rw [List.flatMap_cons, List.append_assoc, h, ih, List.map_cons, List.flatMap_cons,
        List.append_assoc]

/-- No type is spelled with the sign `=`. -/
theorem TypeTree.isReserved_token (tree : TypeTree) : tree.token.isReserved "=" = false := by
  refine Bool.eq_false_iff.2 fun hequals => ?_
  exact tree.token_ne_reserved _ (by decide) (Token.eq_reserved_of_isReserved hequals)

/-- The token of a type without its line spells the type without its line. -/
theorem TypeTree.token_plain (tree : TypeTree) : tree.plain.token = tree.token.unplaced := by
  cases tree <;> rfl

/-- The tokens of a field without numbers and lines are those of the field without them. -/
theorem FieldTree.plainTokens_append (tree : FieldTree) (rest : List Token) :
    plainTokens (tree.tokens ++ rest) = tree.plain.tokens ++ plainTokens rest := by
  obtain ⟨repeatedLine, type, name, number, endLine⟩ := tree
  have htype := type.isReserved_token
  cases repeatedLine with
  | none =>
      simp only [tokens, headTokens, Option.map_none, Option.toList_none, List.nil_append,
        List.cons_append, List.append_assoc]
      rw [plainTokens_cons htype, plainTokens_cons rfl, plainTokens_numberTokens,
        plainTokens_cons rfl, ← type.token_plain]
      rfl
  | some line =>
      simp only [tokens, headTokens, Option.map_some, Option.toList_some, List.nil_append,
        List.cons_append, List.append_assoc]
      rw [plainTokens_cons rfl, plainTokens_cons htype, plainTokens_cons rfl,
        plainTokens_numberTokens, plainTokens_cons rfl, ← type.token_plain]
      rfl

/-- The tokens of a message without numbers and lines are those of the message without them. -/
theorem MessageTree.plainTokens_append (tree : MessageTree) (rest : List Token) :
    plainTokens (tree.tokens ++ rest) = tree.plain.tokens ++ plainTokens rest := by
  simp only [tokens, List.cons_append, List.append_assoc, List.nil_append]
  rw [plainTokens_cons rfl, plainTokens_cons rfl, plainTokens_cons rfl,
    plainTokens_flatMap_append FieldTree.plainTokens_append, plainTokens_cons rfl]
  rfl

/-- The tokens of a schema without numbers and lines are those of the schema without them. -/
theorem SchemaTree.plainTokens_append (tree : SchemaTree) (rest : List Token) :
    plainTokens (tree.tokens ++ rest) = tree.plain.tokens ++ plainTokens rest := by
  simp only [tokens, packageTokens, List.cons_append, List.nil_append]
  rw [plainTokens_cons rfl, plainTokens_cons rfl, plainTokens_cons rfl,
    plainTokens_flatMap_append MessageTree.plainTokens_append]
  rfl

/-- A field means the same without its number and lines. -/
theorem FieldTree.meaning_plain (tree : FieldTree) : tree.plain.meaning = tree.meaning := by
  have htype : tree.type.plain.meaning = tree.type.meaning := by
    cases tree.type <;> rfl
  simp [meaning, plain, htype, Word.unplaced]

/-- A message means the same without numbers and lines. -/
theorem MessageTree.meaning_plain (tree : MessageTree) : tree.plain.meaning = tree.meaning := by
  simp [meaning, plain, Word.unplaced, Function.comp_def, FieldTree.meaning_plain]

/-- A schema means the same without numbers and lines. -/
theorem SchemaTree.meaning_plain (tree : SchemaTree) : tree.plain.meaning = tree.meaning := by
  simp [meaning, declarations, plain, Word.unplaced, Function.comp_def, MessageTree.meaning_plain]

/-- The input ends where it ends without numbers and lines. -/
theorem EndsInput.plainTokens {rest : List Token} (h : EndsInput rest) :
    EndsInput (plainTokens rest) := by
  cases rest with
  | nil => trivial
  | cons token rest =>
      have hkind : token.kind = .endOfInput := h
      rw [plainTokens_cons (by simp [Token.isReserved, hkind])]
      exact hkind

/-- Token lists that are read as schemas and agree but for numbers and lines are read as the same
schema. -/
theorem Schema.eq_of_plainTokens {allowRedefinition : Bool} {first second : List Token}
    {schema other : Schema}
    (hfirst : (Schema.ofTokens allowRedefinition first).result = .ok schema)
    (hsecond : (Schema.ofTokens allowRedefinition second).result = .ok other)
    (h : plainTokens first = plainTokens second) : schema = other := by
  obtain ⟨tree, rest, rfl, hrest, -, -, rfl⟩ := Schema.ofTokens_eq_ok.1 hfirst
  obtain ⟨otherTree, otherRest, rfl, hotherRest, -, -, rfl⟩ := Schema.ofTokens_eq_ok.1 hsecond
  rw [tree.plainTokens_append, otherTree.plainTokens_append] at h
  -- The grammar is unambiguous, so the trees agree but for numbers and lines.
  obtain ⟨hplain, -⟩ := SchemaTree.tokens_append_inj hrest.plainTokens hotherRest.plainTokens h
  rw [← tree.meaning_plain, hplain, otherTree.meaning_plain]

/-! ## The main result -/

/-- Layout, comments and field numbers do not matter. Texts whose tokens are spelled alike are
compiled to the same schema or fail with parse errors that differ at most in their lines. Texts that
are compiled and whose tokens are spelled alike but for field numbers have the same schema, the same
header and the same dump. -/
theorem layout_and_numbers_do_not_matter (options : Options) (first second : String)
    (firstTokens secondTokens : List Token)
    (hfirst : (tokenize first).result = .ok firstTokens)
    (hsecond : (tokenize second).result = .ok secondTokens) :
    (firstTokens.map Token.spelling = secondTokens.map Token.spelling →
      (∃ schema, (compileSchema options first).result = .ok schema ∧
        (compileSchema options second).result = .ok schema) ∨
      ∃ (error : ParseError) (line : Int),
        (compileSchema options first).result = .error (.parse error) ∧
        (compileSchema options second).result =
          .error (.parse { error with token := { error.token with line } })) ∧
    (∀ firstSchema secondSchema : Schema,
      (compileSchema options first).result = .ok firstSchema →
      (compileSchema options second).result = .ok secondSchema →
      (withoutNumbers firstTokens).map Token.spelling =
        (withoutNumbers secondTokens).map Token.spelling →
      firstSchema = secondSchema ∧
      ∃ header dump,
        (compileHeader options first).result = .ok header ∧
        (compileHeader options second).result = .ok header ∧
        (compileDump options first).result = .ok dump ∧
        (compileDump options second).result = .ok dump) := by
  have hfirstScan := tokenize_eq_ok_iff.1 hfirst
  have hsecondScan := tokenize_eq_ok_iff.1 hsecond
  constructor
  · intro hspelling
    rw [compileSchema_of_scan hfirstScan, compileSchema_of_scan hsecondScan]
    rcases Schema.ofTokens_of_spelling options.allowRedefinition hspelling with
      ⟨schema, hfirstResult, hsecondResult⟩ | ⟨error, line, hfirstResult, hsecondResult⟩
    · rw [hfirstResult, hsecondResult]
      exact .inl ⟨schema, rfl, rfl⟩
    · rw [hfirstResult, hsecondResult]
      exact .inr ⟨error, line, rfl, rfl⟩
  · intro firstSchema secondSchema hfirstSchema hsecondSchema hspelling
    obtain rfl : firstSchema = secondSchema := by
      obtain ⟨tokens, hscan, hparse⟩ := compileSchema_eq_ok_iff.1 hfirstSchema
      obtain ⟨otherTokens, hotherScan, hotherParse⟩ := compileSchema_eq_ok_iff.1 hsecondSchema
      obtain rfl : firstTokens = tokens := Except.ok.inj (hfirstScan.symm.trans hscan)
      obtain rfl : secondTokens = otherTokens := Except.ok.inj (hsecondScan.symm.trans hotherScan)
      exact Schema.eq_of_plainTokens hparse hotherParse (Token.map_unplaced_of_spelling hspelling)
    exact ⟨rfl, Header.text options firstSchema, firstSchema.dump,
      compileHeader_of_compileSchema hfirstSchema, compileHeader_of_compileSchema hsecondSchema,
      compileDump_of_compileSchema hfirstSchema, compileDump_of_compileSchema hsecondSchema⟩

/-- A schema on one line, with a number. -/
def numberedOnOneLine : String :=
  "package p;message M\x7brepeated bool b=007;\x7d"

/-- The same schema on several lines, with a comment and without the number. -/
def commentedWithoutNumber : String :=
  "package p;\r\nmessage M \x7b // flags\n  repeated bool b;\n\x7d\n"

/-- The two texts have the same header and the same dump. -/
theorem numberedOnOneLine_same_output :
    ∃ header dump,
      (compileHeader .default numberedOnOneLine).result = .ok header ∧
      (compileHeader .default commentedWithoutNumber).result = .ok header ∧
      (compileDump .default numberedOnOneLine).result = .ok dump ∧
      (compileDump .default commentedWithoutNumber).result = .ok dump := by
  have hfirst : Token.scan numberedOnOneLine =
      .ok [.reserved "package" 1, ⟨"p", .identifier, 1⟩, .reserved ";" 1,
        .reserved "message" 1, ⟨"M", .identifier, 1⟩, .reserved "\x7b" 1,
        .reserved "repeated" 1, .reserved "bool" 1, ⟨"b", .identifier, 1⟩,
        .reserved "=" 1, ⟨"007", .number, 1⟩, .reserved ";" 1, .reserved "\x7d" 1,
        .endOfInput] := by
    decide +kernel
  have hsecond : Token.scan commentedWithoutNumber =
      .ok [.reserved "package" 1, ⟨"p", .identifier, 1⟩, .reserved ";" 1,
        .reserved "message" 2, ⟨"M", .identifier, 2⟩, .reserved "\x7b" 2,
        .reserved "repeated" 3, .reserved "bool" 3, ⟨"b", .identifier, 3⟩,
        .reserved ";" 3, .reserved "\x7d" 4, .endOfInput] := by
    decide +kernel
  obtain ⟨schema, hschema⟩ :
      ∃ schema, (compileSchema .default numberedOnOneLine).result = .ok schema := by
    rw [compileSchema_of_scan hfirst]
    exact ⟨_, rfl⟩
  obtain ⟨other, hother⟩ :
      ∃ schema, (compileSchema .default commentedWithoutNumber).result = .ok schema := by
    rw [compileSchema_of_scan hsecond]
    exact ⟨_, rfl⟩
  exact ((layout_and_numbers_do_not_matter .default numberedOnOneLine commentedWithoutNumber _ _
    (tokenize_eq_ok_iff.2 hfirst) (tokenize_eq_ok_iff.2 hsecond)).2 schema other hschema hother
    (by decide)).2

end SchemaCompiler
