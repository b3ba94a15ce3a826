import SchemaCompiler.Proofs.Parsing

/-!
# Places in the grammar

The tokens that have been read stand for a place in the grammar. The places are described by
derivation trees alone, without the parser: `PackageOpen`, `HeadOpen`, `TypeDue` and `FieldOpen` say
which part of a tree the tokens are.

The link to the parser has two directions. What a state has read is such a part (`State.Spells`),
and transitions over the tokens of a part lead to one state only (`State.Steps.after_tree` and
`State.Steps.after_body`). So the rule that a state is in is determined by the tokens before it
(`State.Spells.package_iff`, `State.Steps.schema_iff`, `message_iff`, `type_iff`, `field_iff`).
-/

namespace SchemaCompiler

/-! ## Places -/

/-- The package clause is not complete. -/
def PackageOpen (read : List Token) : Prop :=
  ∀ tree : SchemaTree, ¬ tree.packageTokens <+: read

/-- The messages of the tree are followed by the word `message` of another one. -/
def NameDue (tree : SchemaTree) (read : List Token) : Prop :=
  ∃ line, read = tree.tokens ++ [.reserved "message" line]

/-- The head of a message is not complete: its name or its opening brace comes next, or the word
`message` of the first message. -/
def HeadOpen (read : List Token) : Prop :=
  ∃ tree : SchemaTree, (tree.messages = [] ∧ read = tree.tokens) ∨ NameDue tree read ∨
    ∃ line name, read = State.openTokens tree line name

/-- The tokens of the messages of the tree and of another message without its closing brace. -/
def bodyTokens (tree : SchemaTree) (message : MessageTree) : List Token :=
  State.openTokens tree message.keywordLine message.name ++
    .reserved "\x7b" message.openLine :: message.fields.flatMap FieldTree.tokens

/-- In the message after those of the tree, the type of a field comes next: after the opening brace
or a complete field, or after the word `repeated`. -/
def TypeDue (tree : SchemaTree) (read : List Token) : Prop :=
  ∃ message, read = bodyTokens tree message ∨
    ∃ line, read = bodyTokens tree message ++ [.reserved "repeated" line]

/-- The tokens of a field up to its type. -/
def FieldTree.typeTokens (tree : FieldTree) : List Token :=
  (tree.repeatedLine.map (Token.reserved "repeated")).toList ++ [tree.type.token]

/-- The tokens of a field after its type. -/
theorem FieldTree.tokens_eq (tree : FieldTree) :
    tree.tokens = tree.typeTokens ++
      (tree.name.identifier :: tree.numberTokens ++ [.reserved ";" tree.endLine]) := by
  simp [tokens, headTokens, typeTokens]

/-- A field is not complete and its type has been read. -/
def FieldOpen (read : List Token) : Prop :=
  ∃ (tree : SchemaTree) (message : MessageTree) (field : FieldTree) (part due : List Token),
    due ≠ [] ∧ field.tokens = field.typeTokens ++ part ++ due ∧
      read = bodyTokens tree message ++ (field.typeTokens ++ part)

namespace State

variable {allowRedefinition : Bool}

/-! ## Transitions over the parts of a tree -/

/-- At most one transition leads over a token. -/
theorem Step.unique {state next other : State} {token : Token} {events further : List Event}
    (h : Step allowRedefinition state token next events)
    (hother : Step allowRedefinition state token other further) : next = other := by
  have hsame := h.advance_eq.symm.trans hother.advance_eq
  cases hsame
  rfl

/-- Transitions over a token list go on after the state that transitions over its start lead to. -/
theorem Steps.after {state next last : State} {read more : List Token}
    {events further : List Event} (h : Steps allowRedefinition state (read ++ more) last events)
    (hread : Steps allowRedefinition state read next further) :
    ∃ rest, Steps allowRedefinition next more last rest := by
  induction hread generalizing events with
  | refl state => exact ⟨events, h⟩
  | cons hstep _ ih =>
      cases h with
      | cons hfirst hrest =>
          obtain rfl := hfirst.unique hstep
          exact ih hrest

/-- The token of a type leads on only if the type is in scope. -/
theorem Step.scoped {declared : Schema} (hindexed : declared.messages.Indexed) {name : Token}
    {fields : List Field} {place : FieldPlace} (hplace : place.production = .type)
    {type : TypeTree} {next : State} {events : List Event}
    (h : Step allowRedefinition (.messageBody declared name fields place) type.token next events) :
    type.Scoped declared.messages.names := by
  have hscoped {found : FieldType}
      (hfound : FieldType.ofToken? declared.messages type.token = some found) :
      type.Scoped declared.messages.names := by
    obtain ⟨tree, htoken, -, hscoped⟩ := (FieldType.ofToken?_eq_some_iff hindexed).1 hfound
    rwa [← TypeTree.token_inj htoken]
  generalize htoken : type.token = token at h hscoped
  cases h with
  | messageClose => exact absurd htoken (type.token_ne_reserved _ (by decide))
  | fieldRepeated => exact absurd htoken (type.token_ne_reserved _ (by decide))
  | fieldType _ _ _ _ _ hfound => exact hscoped hfound
  | fieldRepeatedType _ _ _ _ _ hfound => exact hscoped hfound
  | _ => cases hplace

/-- Transitions lead over the tokens of a field up to its type only if the type is in scope, and
then to the state after it. -/
theorem Steps.after_type {declared : Schema} (hindexed : declared.messages.Indexed) {name : Token}
    {fields : List Field} {field : FieldTree} {more : List Token} {last : State}
    {events : List Event}
    (h : Steps allowRedefinition (.messageBody declared name fields .start)
      (field.typeTokens ++ more) last events) :
    field.type.Scoped declared.messages.names ∧
      ∃ rest, Steps allowRedefinition
        (.messageBody declared name fields
          (.afterType field.repeatedLine.isSome field.type.meaning)) more last rest := by
  have htype (hscoped : field.type.Scoped declared.messages.names) :
      FieldType.ofToken? declared.messages field.type.token = some field.type.meaning :=
    (FieldType.ofToken?_eq_some_iff hindexed).2 ⟨field.type, rfl, rfl, hscoped⟩
  obtain ⟨repeatedLine, type, identifier, number, endLine⟩ := field
  cases repeatedLine with
  | none =>
      cases h with
      | cons hstep hrest =>
          have hscoped := hstep.scoped hindexed rfl
          obtain rfl := hstep.unique (.fieldType _ _ _ _ _ (htype hscoped))
          exact ⟨hscoped, _, hrest⟩
  | some line =>
      cases h with
      | cons hword h =>
          obtain rfl := hword.unique (.fieldRepeated declared name fields line)
          cases h with
          | cons hstep hrest =>
              have hscoped := hstep.scoped hindexed rfl
              obtain rfl := hstep.unique (.fieldRepeatedType _ _ _ _ _ (htype hscoped))
              exact ⟨hscoped, _, hrest⟩

/-- Transitions lead over the tokens of fields only if their types are in scope. -/
theorem Steps.fields_scoped {declared : Schema} (hindexed : declared.messages.Indexed)
    {name : Token} {fields : List Field} {trees : List FieldTree} {more : List Token}
    {last : State} {events : List Event}
    (h : Steps allowRedefinition (.messageBody declared name fields .start)
      (trees.flatMap FieldTree.tokens ++ more) last events) :
    ∀ tree ∈ trees, tree.type.Scoped declared.messages.names := by
  induction trees generalizing fields events with
  | nil => simp
  | cons tree trees ih =>
      rw [List.flatMap_cons, List.append_assoc] at h
      have hscoped : tree.type.Scoped declared.messages.names := by
        rw [FieldTree.tokens_eq, List.append_assoc] at h
        exact (h.after_type hindexed).1
      obtain ⟨rest, hrest⟩ := h.after (steps_field hindexed name fields tree hscoped)
      exact List.forall_mem_cons.2 ⟨hscoped, ih hrest⟩

/-- A transition leads over the name of a message only if the name may be declared. -/
theorem Steps.after_name {declared : Schema} {name : Word} {more : List Token} {last : State}
    {events : List Event}
    (h : Steps allowRedefinition (.messageName declared) (name.identifier :: more) last events) :
    (allowRedefinition = false → declared.messages.contains name.text = false) ∧
      ∃ rest, Steps allowRedefinition (.messageOpen declared name.identifier) more last rest := by
  cases h with
  | cons hstep hrest =>
      generalize hname : name.identifier = token at hstep
      cases hstep with
      | messageName _ other hfresh =>
          obtain rfl := Word.identifier_inj hname
          exact ⟨hfresh, _, hrest⟩

/-- Transitions lead over the tokens of an open message only if its name may be declared and its
types are in scope, and then to the state after its fields. -/
theorem Steps.after_openMessage {tree : SchemaTree} {message : MessageTree} {more : List Token}
    {last : State} {events : List Event}
    (h : Steps allowRedefinition (afterTree tree)
      (.reserved "message" message.keywordLine :: message.name.identifier ::
        .reserved "\x7b" message.openLine :: (message.fields.flatMap FieldTree.tokens ++ more))
      last events) :
    (allowRedefinition = false → message.name.text ∉ tree.names) ∧ message.Scoped tree.names ∧
      ∃ rest, Steps allowRedefinition
        (.messageBody tree.meaning message.name.identifier message.meaning.fields .start) more
        last rest := by
  cases h with
  | cons hword h =>
      obtain rfl := hword.unique (step_message_afterTree tree message.keywordLine)
      obtain ⟨hfresh, rest, h⟩ := h.after_name
      cases h with
      | cons hopen h =>
          obtain rfl := hopen.unique (.messageOpen tree.meaning _ message.openLine)
          have hscoped := h.fields_scoped tree.indexed_meaning
          refine ⟨fun hallow hmem => ?_, fun field hfield => ?_, ?_⟩
          · have hknown := (tree.indexed_meaning.contains_iff message.name.text).2
              (SchemaTree.mem_names_meaning.2 hmem)
            rw [hfresh hallow] at hknown
            cases hknown
          · exact (hscoped field hfield).mono fun name => SchemaTree.mem_names_meaning.1
          · exact h.after (steps_fields tree.indexed_meaning _ [] message.fields hscoped)

/-- Transitions lead over the tokens of a package clause and messages only if they are admissible,
and then to the state after them. -/
theorem Steps.after_tree {tree : SchemaTree} {more : List Token} {last : State}
    {events : List Event}
    (h : Steps allowRedefinition .start (tree.tokens ++ more) last events) :
    ∃ rest, Steps allowRedefinition (afterTree tree) more last rest := by
  have hadmissible : tree.Admissible allowRedefinition := by
    induction tree using SchemaTree.snoc_induction generalizing more with
    | nil tree hempty =>
        refine ⟨?_, fun _ => ?_⟩
        · rw [hempty]
          trivial
        · simp [SchemaTree.names, hempty]
    | snoc tree message ih =>
        rw [SchemaTree.tokens_snoc, List.append_assoc] at h
        have hbefore := ih h
        obtain ⟨further, hsteps⟩ := steps_schema tree hbefore
        obtain ⟨rest, hrest⟩ := h.after hsteps
        rw [MessageTree.tokens, List.cons_append, List.cons_append, List.cons_append,
          List.append_assoc] at hrest
        obtain ⟨hfresh, hscoped, -⟩ := hrest.after_openMessage
        exact SchemaTree.admissible_snoc.2 ⟨hbefore, hscoped, hfresh⟩
  obtain ⟨further, hsteps⟩ := steps_schema tree hadmissible
  exact h.after hsteps

/-- Transitions over the tokens of an open message and those before it lead to the state after its
fields. -/
theorem Steps.after_body {tree : SchemaTree} {message : MessageTree} {more : List Token}
    {last : State} {events : List Event}
    (h : Steps allowRedefinition .start (bodyTokens tree message ++ more) last events) :
    ∃ rest, Steps allowRedefinition
      (.messageBody tree.meaning message.name.identifier message.meaning.fields .start) more
      last rest := by
  rw [bodyTokens, openTokens, List.append_assoc, List.append_assoc] at h
  obtain ⟨rest, hrest⟩ := h.after_tree
  exact (Steps.after_openMessage hrest).2.2

/-- A transition within a field that does not end it stays after the type. -/
theorem Step.production_field {state next : State} {token : Token} {events : List Event}
    (h : Step allowRedefinition state token next events) (hstate : state.production = .field)
    (htoken : token.isReserved ";" = false) : next.production = .field := by
  cases h with
  | fieldName | fieldEquals | fieldNumber => rfl
  | fieldEnd | numberedFieldEnd => simp [Token.isReserved_reserved] at htoken
  | _ => cases hstate

/-- Transitions within a field that do not end it stay after the type. -/
theorem Steps.production_field {state last : State} {read : List Token} {events : List Event}
    (h : Steps allowRedefinition state read last events) (hstate : state.production = .field)
    (hread : ∀ token ∈ read, token.isReserved ";" = false) : last.production = .field := by
  induction h with
  | refl state => exact hstate
  | cons hstep _ ih =>
      obtain ⟨htoken, hrest⟩ := List.forall_mem_cons.1 hread
      exact ih (hstep.production_field hstate htoken) hrest

end State

/-! ## States and places -/

/-- Where a type is due, at most the word `repeated` of the field has been read. -/
theorem FieldPlace.Spells.eq_of_type {declared : List String} {place : FieldPlace}
    {part : List Token} (h : place.Spells declared part) (hplace : place.production = .type) :
    part = [] ∨ ∃ line, part = [.reserved "repeated" line] := by
  cases h with
  | start => exact .inl rfl
  | afterRepeated line => exact .inr ⟨line, rfl⟩
  | _ => cases hplace

/-- After the type of a field, a part of a field has been read that something is missing of. -/
theorem FieldPlace.Spells.exists_field {declared : List String} {place : FieldPlace}
    {part : List Token} (h : place.Spells declared part) (hplace : place.production = .field) :
    ∃ (field : FieldTree) (rest due : List Token), due ≠ [] ∧
      field.tokens = field.typeTokens ++ rest ++ due ∧ part = field.typeTokens ++ rest := by
  cases h with
  | start | afterRepeated => cases hplace
  | afterType line type hscoped =>
      exact ⟨⟨line, type, ⟨"x", 0⟩, none, 0⟩, [], _, List.cons_ne_nil _ _,
        by rw [FieldTree.tokens_eq, List.append_nil]; rfl, (List.append_nil _).symm⟩
  | afterName tree hscoped =>
      refine ⟨{ tree with number := none }, [tree.name.identifier],
        [.reserved ";" tree.endLine], by simp, ?_, ?_⟩ <;>
        simp [FieldTree.tokens_eq, FieldTree.numberTokens, FieldTree.headTokens,
          FieldTree.typeTokens]
  | afterEquals tree line hscoped =>
      refine ⟨{ tree with number := some (line, ⟨"0", 0⟩) },
        [tree.name.identifier, .reserved "=" line],
        [Word.number ⟨"0", 0⟩, .reserved ";" tree.endLine], by simp, ?_, ?_⟩ <;>
        simp [FieldTree.tokens_eq, FieldTree.numberTokens, FieldTree.headTokens,
          FieldTree.typeTokens]
  | afterNumber tree line number hscoped =>
      refine ⟨{ tree with number := some (line, number) },
        [tree.name.identifier, .reserved "=" line, number.number],
        [.reserved ";" tree.endLine], by simp, ?_, ?_⟩ <;>
        simp [FieldTree.tokens_eq, FieldTree.numberTokens, FieldTree.headTokens,
          FieldTree.typeTokens]

/-- The sign that ends a field stands at its end only. -/
theorem FieldTree.isReserved_of_mem {field : FieldTree} {part due : List Token}
    (h : field.tokens = field.typeTokens ++ part ++ due) (hdue : due ≠ []) {token : Token}
    (hmem : token ∈ part) : token.isReserved ";" = false := by
  rw [FieldTree.tokens_eq, List.append_assoc, List.append_cancel_left_eq] at h
  obtain ⟨before, last, rfl⟩ := (List.eq_nil_or_concat due).resolve_left hdue
  rw [List.concat_eq_append, ← List.append_assoc] at h
  have hbefore : token ∈ field.name.identifier :: field.numberTokens := by
    rw [(List.append_inj' h rfl).1]
    exact List.mem_append_left _ hmem
  rcases List.mem_cons.1 hbefore with rfl | hnumber
  · simp [Word.identifier, Token.isReserved]
  · unfold numberTokens at hnumber
    split at hnumber
    · cases hnumber
    · simp only [List.mem_cons, List.not_mem_nil, or_false] at hnumber
      rcases hnumber with rfl | rfl
      · simp [Token.isReserved_reserved]
      · simp [Word.number, Token.isReserved]

namespace State

variable {allowRedefinition : Bool} {state : State} {read : List Token} {events : List Event}

/-- Only after a complete message an error names the rule of schemas. -/
theorem eq_nextMessage_of_production {state : State} (h : state.production = .schema) :
    ∃ declared, state = .nextMessage declared := by
  cases state with
  | nextMessage declared => exact ⟨declared, rfl⟩
  | messageBody declared name fields place => cases place <;> cases h
  | _ => cases h

/-- Only in the body of a message an error names the rule of types. -/
theorem eq_messageBody_of_production {state : State} (h : state.production = .type) :
    ∃ declared name fields place, state = .messageBody declared name fields place ∧
      place.production = .type := by
  cases state with
  | messageBody declared name fields place => exact ⟨declared, name, fields, place, rfl, h⟩
  | _ => cases h

/-- What transitions from the start lead over is what their last state has read. -/
theorem Steps.spells (h : Steps allowRedefinition .start read state events) :
    Spells allowRedefinition state read :=
  Spells.start.steps h

/-- The rule of packages is named exactly while the package clause is open. -/
theorem Spells.package_iff (h : Spells allowRedefinition state read) :
    state.production = .package ↔ PackageOpen read := by
  have hcomplete (tree : SchemaTree) (more : List Token) : ¬ PackageOpen (tree.tokens ++ more) :=
    fun hopen => hopen tree
      ((List.prefix_append _ _).trans (List.prefix_append tree.tokens more))
  have hshort (hread : read.length < 3) : PackageOpen read :=
    fun tree hprefix => absurd hprefix.length_le (by simpa [SchemaTree.packageTokens] using hread)
  cases h with
  | start | packageName | packageEnd => exact iff_of_true rfl (hshort (by simp))
  | firstMessage tree | nextMessage tree =>
      refine iff_of_false (fun hpackage => by cases hpackage) ?_
      rw [← List.append_nil tree.tokens]
      exact hcomplete tree []
  | messageName tree line | messageOpen tree line name =>
      exact iff_of_false (fun hpackage => by cases hpackage) (hcomplete tree _)
  | messageBody tree line name openLine fields place =>
      refine iff_of_false (fun hpackage => by cases place <;> cases hpackage) ?_
      rw [openTokens, List.append_assoc]
      exact hcomplete tree _

/-- Transitions over the tokens of a package clause and messages lead to the state after them. -/
theorem Steps.eq_afterTree {tree : SchemaTree}
    (h : Steps allowRedefinition .start tree.tokens state events) : state = afterTree tree := by
  rw [← List.append_nil tree.tokens] at h
  obtain ⟨rest, hrest⟩ := h.after_tree
  cases hrest
  rfl

/-- The rule of schemas is named exactly after a complete message. -/
theorem Steps.schema_iff (h : Steps allowRedefinition .start read state events) :
    state.production = .schema ↔ ∃ tree : SchemaTree, tree.messages ≠ [] ∧ read = tree.tokens := by
  constructor
  · intro hproduction
    obtain ⟨declared, rfl⟩ := eq_nextMessage_of_production hproduction
    cases h.spells with
    | nextMessage tree hmessages => exact ⟨tree, hmessages, rfl⟩
  · rintro ⟨tree, hmessages, rfl⟩
    rw [h.eq_afterTree, afterTree, if_neg hmessages]
    rfl

/-- Where a name is due after the messages of a tree, the parser expects the name of a message. -/
theorem Steps.eq_messageName {tree : SchemaTree}
    (h : Steps allowRedefinition .start read state events) (hdue : NameDue tree read) :
    state = .messageName tree.meaning := by
  obtain ⟨line, rfl⟩ := hdue
  obtain ⟨rest, hrest⟩ := h.after_tree
  cases hrest with
  | cons hword hnone =>
      cases hnone
      exact hword.unique (step_message_afterTree tree line)

/-- The rule of messages is named exactly in the head of a message. -/
theorem Steps.message_iff (h : Steps allowRedefinition .start read state events) :
    state.production = .message ↔ HeadOpen read := by
  constructor
  · intro hproduction
    cases h.spells with
    | firstMessage tree hempty => exact ⟨tree, .inl ⟨hempty, rfl⟩⟩
    | messageName tree line => exact ⟨tree, .inr (.inl ⟨line, rfl⟩)⟩
    | messageOpen tree line name => exact ⟨tree, .inr (.inr ⟨line, name, rfl⟩)⟩
    | messageBody tree line name openLine fields place => cases place <;> cases hproduction
    | _ => cases hproduction
  · rintro ⟨tree, ⟨hempty, rfl⟩ | hdue | ⟨line, name, rfl⟩⟩
    · rw [h.eq_afterTree, afterTree, if_pos hempty]
      rfl
    · rw [h.eq_messageName hdue]
      rfl
    · obtain ⟨rest, hrest⟩ := h.after_tree
      cases hrest with
      | cons hword hname =>
          obtain rfl := hword.unique (step_message_afterTree tree line)
          obtain ⟨-, further, hlast⟩ := hname.after_name
          cases hlast
          rfl

/-- Where a type is due in the message after those of a tree, the parser expects one. -/
theorem Steps.eq_messageBody {tree : SchemaTree}
    (h : Steps allowRedefinition .start read state events) (hdue : TypeDue tree read) :
    ∃ name fields place, state = .messageBody tree.meaning name fields place ∧
      place.production = .type := by
  obtain ⟨message, rfl | ⟨line, rfl⟩⟩ := hdue
  · rw [← List.append_nil (bodyTokens tree message)] at h
    obtain ⟨rest, hrest⟩ := h.after_body
    cases hrest
    exact ⟨_, _, .start, rfl, rfl⟩
  · obtain ⟨rest, hrest⟩ := h.after_body
    cases hrest with
    | cons hword hnone =>
        cases hnone
        exact ⟨_, _, .afterRepeated, hword.unique (.fieldRepeated ..), rfl⟩

/-- Where the parser expects a type, one is due in the message after those that were declared. -/
theorem Spells.exists_typeDue {declared : Schema} {name : Token} {fields : List Field}
    {place : FieldPlace}
    (h : Spells allowRedefinition (.messageBody declared name fields place) read)
    (hplace : place.production = .type) : ∃ tree, declared = tree.meaning ∧ TypeDue tree read := by
  cases h with
  | messageBody tree line name openLine fields place part _ _ _ hpart =>
      refine ⟨tree, rfl, ⟨line, name, openLine, fields, 0⟩, ?_⟩
      rcases hpart.eq_of_type hplace with rfl | ⟨repeatedLine, rfl⟩
      · exact .inl (by simp [bodyTokens])
      · exact .inr ⟨repeatedLine, by simp [bodyTokens]⟩

/-- The rule of types is named exactly where a type is due. -/
theorem Steps.type_iff (h : Steps allowRedefinition .start read state events) :
    state.production = .type ↔ ∃ tree, TypeDue tree read := by
  constructor
  · intro hproduction
    obtain ⟨declared, name, fields, place, rfl, hplace⟩ :=
      eq_messageBody_of_production hproduction
    obtain ⟨tree, -, hdue⟩ := h.spells.exists_typeDue hplace
    exact ⟨tree, hdue⟩
  · rintro ⟨tree, hdue⟩
    obtain ⟨name, fields, place, rfl, hplace⟩ := h.eq_messageBody hdue
    exact hplace

/-- The rule of fields is named exactly after the type of a field. -/
theorem Steps.field_iff (h : Steps allowRedefinition .start read state events) :
    state.production = .field ↔ FieldOpen read := by
  constructor
  · intro hproduction
    cases h.spells with
    | messageBody tree line name openLine fields place part _ _ _ hpart =>
        obtain ⟨field, rest, due, hdue, htokens, rfl⟩ := hpart.exists_field hproduction
        refine ⟨tree, ⟨line, name, openLine, fields, 0⟩, field, rest, due, hdue, htokens, ?_⟩
        simp [bodyTokens]
    | _ => cases hproduction
  · rintro ⟨tree, message, field, part, due, hdue, htokens, rfl⟩
    obtain ⟨rest, hrest⟩ := h.after_body
    obtain ⟨-, further, hpart⟩ := hrest.after_type tree.indexed_meaning
    exact hpart.production_field rfl fun token => FieldTree.isReserved_of_mem htokens hdue

end State

end SchemaCompiler
