import SchemaCompiler.Grammar.State
import SchemaCompiler.Proofs.Derivation

/-!
# Transitions of the parser

`State.Step` lists the transitions of the parser, one constructor each, with the tokens that take
them and what they report. `State.advance_eq_ok_iff` says that `State.advance` computes exactly
these, and `State.run_eq_ok_iff` that a run succeeds exactly when transitions lead over the tokens
before the end of the input to a state after a message. Facts about runs are proved on `Step`.
-/

namespace SchemaCompiler

namespace Token

/-- A reserved word is only the word that it is. -/
theorem isReserved_reserved (word other : String) (line : Int) :
    (reserved word line).isReserved other = (word == other) := by
  simp [reserved, isReserved]

/-- The token that is a given reserved word is determined by its line. -/
theorem eq_reserved_of_isReserved {token : Token} {word : String}
    (h : token.isReserved word = true) : token = .reserved word token.line := by
  obtain ⟨content, kind, line⟩ := token
  simp only [isReserved, Bool.and_eq_true, beq_iff_eq] at h
  obtain ⟨rfl, rfl⟩ := h
  rfl

/-- Every identifier is a word. -/
theorem eq_identifier_of_kind {token : Token} (h : token.kind = .identifier) :
    token = Word.identifier ⟨token.content, token.line⟩ := by
  obtain ⟨content, kind, line⟩ := token
  obtain rfl : kind = .identifier := h
  rfl

/-- Every number is a word. -/
theorem eq_number_of_kind {token : Token} (h : token.kind = .number) :
    token = Word.number ⟨token.content, token.line⟩ := by
  obtain ⟨content, kind, line⟩ := token
  obtain rfl : kind = .number := h
  rfl

end Token

/-- A word names the primitive type that has it. -/
theorem Primitive.ofWord?_eq_some_iff {word : String} {type : Primitive} :
    ofWord? word = some type ↔ type.word = word := by
  constructor
  · intro h
    simpa using List.find?_some h
  · rintro rfl
    cases type <;> rfl

/-- A token names a type exactly when it spells one that the table has in scope. -/
theorem FieldType.ofToken?_eq_some_iff {declared : MessageTable} (hindexed : declared.Indexed)
    {token : Token} {type : FieldType} :
    ofToken? declared token = some type ↔
      ∃ tree : TypeTree, tree.token = token ∧ tree.meaning = type ∧
        tree.Scoped declared.names := by
  obtain ⟨content, kind, line⟩ := token
  constructor
  · intro h
    cases kind with
    | reserved =>
        obtain ⟨primitive, hword, rfl⟩ := Option.map_eq_some_iff.1 h
        obtain rfl : primitive.word = content := Primitive.ofWord?_eq_some_iff.1 hword
        exact ⟨.primitive primitive line, rfl, rfl, trivial⟩
    | identifier =>
        obtain ⟨hknown, rfl⟩ : declared.contains content = true ∧ .message content = type := by
          simpa [ofToken?] using h
        exact ⟨.message ⟨content, line⟩, rfl, rfl, (hindexed.contains_iff content).1 hknown⟩
    | number => cases h
    | endOfInput => cases h
  · rintro ⟨tree, htoken, rfl, hscoped⟩
    cases tree with
    | primitive primitive typeLine =>
        obtain ⟨rfl, rfl, rfl⟩ := Token.mk.inj htoken
        show (Primitive.ofWord? primitive.word).map FieldType.primitive = _
        rw [Primitive.ofWord?_eq_some_iff.2 rfl]
        rfl
    | message name =>
        obtain ⟨rfl, rfl, rfl⟩ := Token.mk.inj htoken
        show (if declared.contains name.text then _ else none) = _
        rw [if_pos ((hindexed.contains_iff name.text).2 hscoped)]
        rfl

namespace State

/-- `Step allow state token next events` says that the parser goes from `state` over `token` to
`next` and reports `events`. -/
inductive Step (allowRedefinition : Bool) : State → Token → State → List Event → Prop where
  | package (line) :
      Step allowRedefinition .start (.reserved "package" line) .packageName []
  | packageName (name : Word) :
      Step allowRedefinition .packageName name.identifier (.packageEnd name.text) []
  | packageEnd (package line) :
      Step allowRedefinition (.packageEnd package) (.reserved ";" line) (.firstMessage package) []
  | firstMessage (package line) :
      Step allowRedefinition (.firstMessage package) (.reserved "message" line)
        (.messageName ⟨package, .empty⟩) []
  | nextMessage (declared line) :
      Step allowRedefinition (.nextMessage declared) (.reserved "message" line)
        (.messageName declared) []
  | messageName (declared) (name : Word) :
      (allowRedefinition = false → declared.messages.contains name.text = false) →
      Step allowRedefinition (.messageName declared) name.identifier
        (.messageOpen declared name.identifier) []
  | messageOpen (declared name line) :
      Step allowRedefinition (.messageOpen declared name) (.reserved "\x7b" line)
        (.messageBody declared name [] .start) []
  | messageClose (declared name fields line) :
      Step allowRedefinition (.messageBody declared name fields .start) (.reserved "\x7d" line)
        (closeMessage declared name fields).1 (closeMessage declared name fields).2
  | fieldRepeated (declared name fields line) :
      Step allowRedefinition (.messageBody declared name fields .start)
        (.reserved "repeated" line) (.messageBody declared name fields .afterRepeated) []
  | fieldType (declared name fields token type) :
      FieldType.ofToken? declared.messages token = some type →
      Step allowRedefinition (.messageBody declared name fields .start) token
        (.messageBody declared name fields (.afterType false type)) []
  | fieldRepeatedType (declared name fields token type) :
      FieldType.ofToken? declared.messages token = some type →
      Step allowRedefinition (.messageBody declared name fields .afterRepeated) token
        (.messageBody declared name fields (.afterType true type)) []
  | fieldName (declared name fields repeated type) (identifier : Word) :
      Step allowRedefinition (.messageBody declared name fields (.afterType repeated type))
        identifier.identifier
        (.messageBody declared name fields
          (.afterName { identifier := identifier.text, type, repeated })) []
  | fieldEquals (declared name fields field line) :
      Step allowRedefinition (.messageBody declared name fields (.afterName field))
        (.reserved "=" line) (.messageBody declared name fields (.afterEquals field)) []
  | fieldNumber (declared name fields field) (number : Word) :
      Step allowRedefinition (.messageBody declared name fields (.afterEquals field))
        number.number (.messageBody declared name fields (.afterNumber field)) []
  | fieldEnd (declared name fields field line) :
      Step allowRedefinition (.messageBody declared name fields (.afterName field))
        (.reserved ";" line) (.messageBody declared name (fields ++ [field]) .start) []
  | numberedFieldEnd (declared name fields field line) :
      Step allowRedefinition (.messageBody declared name fields (.afterNumber field))
        (.reserved ";" line) (.messageBody declared name (fields ++ [field]) .start) []

variable {allowRedefinition : Bool}

/-- A token that names a type is no other reserved word. -/
theorem isReserved_eq_false_of_ofToken? {declared : MessageTable} {token : Token}
    {type : FieldType} (h : FieldType.ofToken? declared token = some type) (word : String)
    (hword : word ∉ Primitive.all.map Primitive.word) : token.isReserved word = false := by
  refine Bool.eq_false_iff.2 fun hreserved => hword ?_
  rw [Token.eq_reserved_of_isReserved hreserved] at h
  obtain ⟨primitive, hprimitive, -⟩ := Option.map_eq_some_iff.1 h
  exact List.mem_map.2 ⟨primitive, primitive.mem_all, Primitive.ofWord?_eq_some_iff.1 hprimitive⟩

/-- Every transition is computed. -/
theorem Step.advance_eq {state next : State} {token : Token} {events : List Event}
    (h : Step allowRedefinition state token next events) :
    state.advance allowRedefinition token = .ok (next, events) := by
  cases h with
  | package | packageEnd | firstMessage | nextMessage | messageOpen =>
      simp [advance, Token.isReserved_reserved]
  | packageName => simp [advance, Word.identifier]
  | messageName declared name hfresh =>
      have hdup : (!allowRedefinition && declared.messages.contains name.text) = false := by
        cases allowRedefinition with
        | false => simpa using hfresh rfl
        | true => rfl
      simp [advance, Word.identifier, hdup]
  | messageClose | fieldRepeated | fieldEquals | fieldEnd | numberedFieldEnd =>
      simp [advance, advanceBody, Token.isReserved_reserved]
  | fieldType declared name fields _ type htype =>
      -- The closing brace and the word `repeated` are tried before a type.
      simp only [advance, advanceBody, readType, htype, Except.map,
        isReserved_eq_false_of_ofToken? htype "\x7d" (by decide),
        isReserved_eq_false_of_ofToken? htype "repeated" (by decide)]
      rfl
  | fieldRepeatedType declared name fields _ type htype =>
      simp only [advance, advanceBody, readType, htype, Except.map]
  | fieldName => simp [advance, advanceBody, Word.identifier]
  | fieldNumber => simp [advance, advanceBody, Word.number]

/-- Where a type is due, only a token that names one is read. -/
theorem map_readType_eq_ok {α : Type} {declared : Schema} {repeated : Bool} {token : Token}
    {after : FieldPlace → α} {result : α}
    (h : (readType declared repeated token).map after = .ok result) :
    ∃ type, FieldType.ofToken? declared.messages token = some type ∧
      after (.afterType repeated type) = result := by
  unfold readType at h
  split at h
  · next type htype => exact ⟨type, htype, Except.ok.inj h⟩
  · cases h

/-- Only transitions are computed in the body of a message. -/
theorem Step.of_advanceBody {declared : Schema} {name token : Token} {fields : List Field}
    {place : FieldPlace} {next : State} {events : List Event}
    (h : advanceBody declared name fields place token = .ok (next, events)) :
    Step allowRedefinition (.messageBody declared name fields place) token next events := by
  cases place with
  | start =>
      simp only [advanceBody] at h
      split_ifs at h with hclose hrepeated
      · rw [Token.eq_reserved_of_isReserved hclose]
        cases h
        exact .messageClose ..
      · rw [Token.eq_reserved_of_isReserved hrepeated]
        cases h
        exact .fieldRepeated ..
      · obtain ⟨type, htype, hnext⟩ := map_readType_eq_ok h
        cases hnext
        exact .fieldType _ _ _ _ _ htype
  | afterRepeated =>
      obtain ⟨type, htype, hnext⟩ := map_readType_eq_ok h
      cases hnext
      exact .fieldRepeatedType _ _ _ _ _ htype
  | afterType repeated type =>
      simp only [advanceBody] at h
      split_ifs at h with hname
      rw [Token.eq_identifier_of_kind hname]
      cases h
      exact .fieldName ..
  | afterName field =>
      simp only [advanceBody] at h
      split_ifs at h with hequals hend
      · rw [Token.eq_reserved_of_isReserved hequals]
        cases h
        exact .fieldEquals ..
      · rw [Token.eq_reserved_of_isReserved hend]
        cases h
        exact .fieldEnd ..
  | afterEquals field =>
      simp only [advanceBody] at h
      split_ifs at h with hnumber
      rw [Token.eq_number_of_kind hnumber]
      cases h
      exact .fieldNumber ..
  | afterNumber field =>
      simp only [advanceBody] at h
      split_ifs at h with hend
      rw [Token.eq_reserved_of_isReserved hend]
      cases h
      exact .numberedFieldEnd ..

/-- Only transitions are computed. -/
theorem Step.of_advance {state next : State} {token : Token} {events : List Event}
    (h : state.advance allowRedefinition token = .ok (next, events)) :
    Step allowRedefinition state token next events := by
  cases state with
  | start =>
      simp only [advance] at h
      split_ifs at h with hword
      rw [Token.eq_reserved_of_isReserved hword]
      cases h
      exact .package _
  | packageName =>
      simp only [advance] at h
      split_ifs at h with hname
      rw [Token.eq_identifier_of_kind hname]
      cases h
      exact .packageName _
  | packageEnd package =>
      simp only [advance] at h
      split_ifs at h with hend
      rw [Token.eq_reserved_of_isReserved hend]
      cases h
      exact .packageEnd ..
  | firstMessage package =>
      simp only [advance] at h
      split_ifs at h with hword
      rw [Token.eq_reserved_of_isReserved hword]
      cases h
      exact .firstMessage ..
  | nextMessage declared =>
      simp only [advance] at h
      split_ifs at h with hword
      rw [Token.eq_reserved_of_isReserved hword]
      cases h
      exact .nextMessage ..
  | messageName declared =>
      simp only [advance] at h
      split_ifs at h with hname hknown
      cases h
      rw [Token.eq_identifier_of_kind hname]
      refine .messageName declared _ fun hallow => ?_
      simpa [hallow] using hknown
  | messageOpen declared name =>
      simp only [advance] at h
      split_ifs at h with hopen
      rw [Token.eq_reserved_of_isReserved hopen]
      cases h
      exact .messageOpen ..
  | messageBody declared name fields place => exact .of_advanceBody h

/-- The parser advances exactly along the transitions. -/
theorem advance_eq_ok_iff {state next : State} {token : Token} {events : List Event} :
    state.advance allowRedefinition token = .ok (next, events) ↔
      Step allowRedefinition state token next events :=
  ⟨.of_advance, Step.advance_eq⟩

/-- `Steps allow state read next events` says that the parser goes from `state` over the tokens
`read` to `next` and reports `events`. -/
inductive Steps (allowRedefinition : Bool) :
    State → List Token → State → List Event → Prop where
  | refl (state) : Steps allowRedefinition state [] state []
  | cons {state next last token read events more} :
      Step allowRedefinition state token next events →
      Steps allowRedefinition next read last more →
      Steps allowRedefinition state (token :: read) last (events ++ more)

/-- A single transition. -/
theorem Step.steps {state next : State} {token : Token} {events : List Event}
    (h : Step allowRedefinition state token next events) :
    Steps allowRedefinition state [token] next events := by
  simpa using Steps.cons h (.refl next)

/-- Transitions over two token lists are transitions over both. -/
theorem Steps.append {state next last : State} {read more : List Token}
    {events further : List Event} (h : Steps allowRedefinition state read next events)
    (hmore : Steps allowRedefinition next more last further) :
    Steps allowRedefinition state (read ++ more) last (events ++ further) := by
  induction h with
  | refl state => exact hmore
  | cons hstep _ ih =>
      rw [List.cons_append, List.append_assoc]
      exact .cons hstep (ih hmore)

/-- No transition leads over an end of the input. -/
theorem Step.kind_ne_endOfInput {state next : State} {token : Token} {events : List Event}
    (h : Step allowRedefinition state token next events) : token.kind ≠ .endOfInput := by
  have hofToken {declared : MessageTable} {type : FieldType}
      (htype : FieldType.ofToken? declared token = some type) : token.kind ≠ .endOfInput := by
    intro hkind
    simp [FieldType.ofToken?, hkind] at htype
  cases h with
  | fieldType _ _ _ _ _ htype => exact hofToken htype
  | fieldRepeatedType _ _ _ _ _ htype => exact hofToken htype
  | packageName | messageName | fieldName => simp [Word.identifier]
  | fieldNumber => simp [Word.number]
  | _ => simp [Token.reserved]

/-- A run goes on after the tokens that transitions lead over. -/
theorem Steps.run_append {state next : State} {read : List Token} {events : List Event}
    (h : Steps allowRedefinition state read next events) (rest : List Token) :
    state.run allowRedefinition (read ++ rest) =
      (next.run allowRedefinition rest).after events := by
  induction h with
  | refl state => rfl
  | cons hstep _ ih =>
      rw [List.cons_append, run, if_neg hstep.kind_ne_endOfInput, advance_eq_ok_iff.2 hstep]
      show Logged.after _ (run allowRedefinition _ _) = _
      rw [ih]
      simp [Logged.after, List.append_assoc]

/-- A run that meets the end of the input finishes there. -/
theorem run_of_endsInput (state : State) {rest : List Token} (h : EndsInput rest) :
    ∃ token, state.run allowRedefinition rest = .ofExcept (state.finish token) := by
  cases rest with
  | nil => exact ⟨.endOfInput, rfl⟩
  | cons token rest =>
      have hkind : token.kind = .endOfInput := h
      exact ⟨token, by rw [run, if_pos hkind]⟩

/-- The state after a message is the only one in which the input may end. -/
theorem finish_eq_ok_iff {state : State} {token : Token} {schema : Schema} :
    state.finish token = .ok schema ↔ state = .nextMessage schema := by
  cases state <;> simp [finish]

/-- A run succeeds exactly when transitions lead over the tokens before the end of the input to a
state after a message. -/
theorem run_eq_ok_iff {state : State} {tokens : List Token} {schema : Schema} :
    (state.run allowRedefinition tokens).result = .ok schema ↔
      ∃ read rest events, tokens = read ++ rest ∧ EndsInput rest ∧
        Steps allowRedefinition state read (.nextMessage schema) events := by
  constructor
  · intro h
    -- A run takes one transition for each token until one ends the input or is refused.
    induction tokens generalizing state with
    | nil =>
        obtain rfl := finish_eq_ok_iff.1 h
        exact ⟨[], [], [], rfl, trivial, .refl _⟩
    | cons token rest ih =>
        rw [run] at h
        split at h
        · next hkind =>
          obtain rfl := finish_eq_ok_iff.1 h
          exact ⟨[], token :: rest, [], rfl, hkind, .refl _⟩
        · split at h
          · next next events hadvance =>
            obtain ⟨read, last, more, rfl, hlast, hsteps⟩ := ih h
            exact ⟨token :: read, last, events ++ more, rfl, hlast,
              .cons (advance_eq_ok_iff.1 hadvance) hsteps⟩
          · cases h
  · rintro ⟨read, rest, events, rfl, hrest, hsteps⟩
    obtain ⟨token, hrun⟩ := run_of_endsInput (.nextMessage schema) hrest
    rw [hsteps.run_append, hrun]
    rfl

end State

end SchemaCompiler
