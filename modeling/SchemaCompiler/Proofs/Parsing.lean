import SchemaCompiler.Options
import SchemaCompiler.Proofs.Transition

/-!
# The parser accepts exactly the grammar

A token list is read as a schema exactly when its tokens before the end of the input are those of an
admissible derivation tree, and then the schema is what the tree means (`Schema.ofTokens_eq_ok`).

Completeness follows the tree: transitions lead over the tokens of each rule (`steps_field`,
`steps_message`, `steps_schema`). Soundness follows the run: `State.Spells` says for each state
which part of a tree the tokens read so far are, and every transition keeps it (`Spells.step`).
-/

namespace SchemaCompiler

namespace SchemaTree

/-- The schema that is meant is the one that the declarations build up. -/
theorem meaning_eq (tree : SchemaTree) :
    tree.meaning = ⟨tree.package.text, .ofList tree.declarations⟩ := by
  rw [meaning, MessageTable.ofList_eq_listing]

/-- The table of the schema that is meant is indexed. -/
theorem indexed_meaning (tree : SchemaTree) : tree.meaning.messages.Indexed := by
  rw [meaning_eq]
  exact MessageTable.indexed_ofList tree.declarations

/-- The table of the schema that is meant has the declared names. -/
theorem mem_names_meaning {tree : SchemaTree} {name : String} :
    name ∈ tree.meaning.messages.names ↔ name ∈ tree.names := by
  rw [meaning_eq, MessageTable.mem_names_ofList, declarations, names, List.map_map]
  rfl

/-- A package clause alone means a schema without messages. -/
theorem meaning_of_messages_eq_nil {tree : SchemaTree} (h : tree.messages = []) :
    tree.meaning = ⟨tree.package.text, .empty⟩ := by
  rw [meaning_eq, declarations, h]
  rfl

/-- The schema with one more message. -/
def snoc (tree : SchemaTree) (message : MessageTree) : SchemaTree :=
  { tree with messages := tree.messages ++ [message] }

/-- A property of package clauses that every further message keeps holds for every schema. -/
@[elab_as_elim]
theorem snoc_induction {motive : SchemaTree → Prop}
    (nil : ∀ tree : SchemaTree, tree.messages = [] → motive tree)
    (snoc : ∀ (tree : SchemaTree) (message : MessageTree), motive tree → motive (tree.snoc message))
    (tree : SchemaTree) : motive tree := by
  obtain ⟨packageLine, package, packageEndLine, messages⟩ := tree
  induction messages using List.reverseRecOn with
  | nil => exact nil _ rfl
  | append_singleton messages message ih => exact snoc _ message ih

/-- The tokens of one more message follow those of the schema. -/
theorem tokens_snoc (tree : SchemaTree) (message : MessageTree) :
    (tree.snoc message).tokens = tree.tokens ++ message.tokens := by
  simp [tokens, snoc, packageTokens]

/-- One more message is stored in the table. -/
theorem meaning_snoc (tree : SchemaTree) (message : MessageTree) :
    (tree.snoc message).meaning =
      { tree.meaning with
        messages := tree.meaning.messages.insert message.meaning } := by
  simp [meaning_eq, snoc, declarations, MessageTable.ofList_snoc]

end SchemaTree

/-- Two lists of messages are in scope one after the other if the second one is with the names of
the first one. -/
theorem MessageTree.scopedAfter_append {declared : List String} {trees more : List MessageTree} :
    ScopedAfter declared (trees ++ more) ↔
      ScopedAfter declared trees ∧ ScopedAfter (declared ++ trees.map (·.name.text)) more := by
  induction trees generalizing declared with
  | nil => simp [ScopedAfter]
  | cons first rest ih => simp [ScopedAfter, ih, and_assoc]

/-- A list of messages is in scope with a further one if that uses only the messages before it. -/
theorem MessageTree.scopedAfter_snoc {declared : List String} {trees : List MessageTree}
    {tree : MessageTree} :
    ScopedAfter declared (trees ++ [tree]) ↔
      ScopedAfter declared trees ∧ tree.Scoped (declared ++ trees.map (·.name.text)) := by
  rw [scopedAfter_append, ScopedAfter, ScopedAfter, and_true]

/-- A schema is admissible with a further message if that uses only the messages before it and has a
new name where this is asked for. -/
theorem SchemaTree.admissible_snoc {allowRedefinition : Bool} {tree : SchemaTree}
    {message : MessageTree} :
    (tree.snoc message).Admissible allowRedefinition ↔
      tree.Admissible allowRedefinition ∧ message.Scoped tree.names ∧
        (allowRedefinition = false → message.name.text ∉ tree.names) := by
  constructor
  · rintro ⟨hscope, hdistinct⟩
    obtain ⟨htree, hmessage⟩ := MessageTree.scopedAfter_snoc.1 hscope
    refine ⟨⟨htree, fun hallow => ?_⟩, hmessage, fun hallow hmem => ?_⟩
    · have hnodup := hdistinct hallow
      rw [names, snoc, List.map_append] at hnodup
      exact hnodup.of_append_left
    · have hnodup := hdistinct hallow
      rw [names, snoc, List.map_append] at hnodup
      exact List.disjoint_of_nodup_append hnodup hmem (by simp)
  · rintro ⟨⟨hscope, hdistinct⟩, hmessage, hfresh⟩
    refine ⟨MessageTree.scopedAfter_snoc.2 ⟨hscope, hmessage⟩, fun hallow => ?_⟩
    rw [names, snoc, List.map_append]
    refine (hdistinct hallow).append (List.nodup_singleton _) ?_
    exact List.disjoint_singleton.2 (hfresh hallow)

/-- A type stays in scope when more messages are declared. -/
theorem TypeTree.Scoped.mono {declared more : List String} {tree : TypeTree}
    (h : tree.Scoped declared) (hmore : ∀ name ∈ declared, name ∈ more) : tree.Scoped more := by
  cases tree with
  | primitive type line => trivial
  | message name => exact hmore _ h

namespace State

variable {allowRedefinition : Bool} {declared : Schema}

/-! ## Completeness -/

/-- Transitions lead over the tokens of a field up to its name. -/
theorem steps_fieldHead (hindexed : declared.messages.Indexed) (name : Token)
    (fields : List Field) (tree : FieldTree)
    (hscoped : tree.type.Scoped declared.messages.names) :
    Steps allowRedefinition (.messageBody declared name fields .start) tree.headTokens
      (.messageBody declared name fields (.afterName tree.meaning)) [] := by
  have htype : FieldType.ofToken? declared.messages tree.type.token = some tree.type.meaning :=
    (FieldType.ofToken?_eq_some_iff hindexed).2 ⟨tree.type, rfl, rfl, hscoped⟩
  obtain ⟨repeatedLine, type, identifier, number, endLine⟩ := tree
  cases repeatedLine with
  | none =>
      exact .cons (.fieldType _ _ _ _ _ htype)
        (Step.fieldName declared name fields false type.meaning identifier).steps
  | some line =>
      exact .cons (.fieldRepeated _ _ _ line)
        (.cons (.fieldRepeatedType _ _ _ _ _ htype)
          (Step.fieldName declared name fields true type.meaning identifier).steps)

/-- Transitions lead over the number of a field and the sign that ends it. -/
theorem steps_fieldTail (name : Token) (fields : List Field) (field : Field) (tree : FieldTree) :
    Steps allowRedefinition (.messageBody declared name fields (.afterName field))
      (tree.numberTokens ++ [.reserved ";" tree.endLine])
      (.messageBody declared name (fields ++ [field]) .start) [] := by
  obtain ⟨repeatedLine, type, identifier, number, endLine⟩ := tree
  cases number with
  | none => exact (Step.fieldEnd declared name fields field endLine).steps
  | some pair =>
      exact .cons (.fieldEquals declared name fields field pair.1)
        (.cons (.fieldNumber declared name fields field pair.2)
          (Step.numberedFieldEnd declared name fields field endLine).steps)

/-- Transitions lead over the tokens of a field. -/
theorem steps_field (hindexed : declared.messages.Indexed) (name : Token) (fields : List Field)
    (tree : FieldTree) (hscoped : tree.type.Scoped declared.messages.names) :
    Steps allowRedefinition (.messageBody declared name fields .start) tree.tokens
      (.messageBody declared name (fields ++ [tree.meaning]) .start) [] := by
  rw [FieldTree.tokens, List.append_assoc]
  exact (steps_fieldHead hindexed name fields tree hscoped).append
    (steps_fieldTail name fields tree.meaning tree)

/-- Transitions lead over the tokens of the fields of a message. -/
theorem steps_fields (hindexed : declared.messages.Indexed) (name : Token) (fields : List Field)
    (trees : List FieldTree)
    (hscoped : ∀ tree ∈ trees, tree.type.Scoped declared.messages.names) :
    Steps allowRedefinition (.messageBody declared name fields .start)
      (trees.flatMap FieldTree.tokens)
      (.messageBody declared name (fields ++ trees.map FieldTree.meaning) .start) [] := by
  induction trees generalizing fields with
  | nil =>
      rw [List.map_nil, List.append_nil]
      exact .refl _
  | cons tree rest ih =>
      have hrest := ih (fields ++ [tree.meaning]) fun other hmem => hscoped other (by simp [hmem])
      rw [List.append_assoc] at hrest
      exact (steps_field hindexed name fields tree (hscoped tree (by simp))).append hrest

/-- Transitions lead over the tokens of a message from any state that takes its first word. -/
theorem steps_message {state : State} (tree : MessageTree)
    (hkeyword : Step allowRedefinition state (.reserved "message" tree.keywordLine)
      (.messageName declared) [])
    (hindexed : declared.messages.Indexed) (hscoped : tree.Scoped declared.messages.names)
    (hfresh : allowRedefinition = false → tree.name.text ∉ declared.messages.names) :
    Steps allowRedefinition state tree.tokens
      (.nextMessage { declared with messages := declared.messages.insert tree.meaning })
      (closeMessage declared tree.name.identifier tree.meaning.fields).2 := by
  have hname : Step allowRedefinition (.messageName declared) tree.name.identifier
      (.messageOpen declared tree.name.identifier) [] := by
    refine .messageName declared tree.name fun hallow => ?_
    exact Bool.eq_false_iff.2 fun hknown =>
      hfresh hallow ((hindexed.contains_iff tree.name.text).1 hknown)
  exact .cons hkeyword (.cons hname (.cons (.messageOpen declared _ tree.openLine)
    ((steps_fields hindexed _ [] tree.fields hscoped).append
      (Step.messageClose declared _ _ tree.closeLine).steps)))

/-- The state after a package clause and messages. -/
def afterTree (tree : SchemaTree) : State :=
  if tree.messages = [] then .firstMessage tree.package.text else .nextMessage tree.meaning

/-- After a package clause and messages, the first word of a message is taken. -/
theorem step_message_afterTree (tree : SchemaTree) (line : Int) :
    Step allowRedefinition (afterTree tree) (.reserved "message" line)
      (.messageName tree.meaning) [] := by
  unfold afterTree
  split
  · next hempty =>
    rw [SchemaTree.meaning_of_messages_eq_nil hempty]
    exact .firstMessage tree.package.text line
  · exact .nextMessage tree.meaning line

/-- Transitions lead over the tokens of an admissible schema. -/
theorem steps_schema (tree : SchemaTree) (h : tree.Admissible allowRedefinition) :
    ∃ events, Steps allowRedefinition .start tree.tokens (afterTree tree) events := by
  induction tree using SchemaTree.snoc_induction with
  | nil tree hempty =>
      rw [SchemaTree.tokens, afterTree, hempty, if_pos rfl]
      exact ⟨_, .cons (.package tree.packageLine) (.cons (.packageName tree.package)
        (Step.packageEnd tree.package.text tree.packageEndLine).steps)⟩
  | snoc tree message ih =>
      obtain ⟨hbefore, hscoped, hfresh⟩ := SchemaTree.admissible_snoc.1 h
      obtain ⟨events, hsteps⟩ := ih hbefore
      -- The state after the earlier messages takes one more, which their names are in scope for.
      have hmessage := steps_message message (step_message_afterTree tree message.keywordLine)
        tree.indexed_meaning
        (fun field hfield => (hscoped field hfield).mono
          fun name hname => SchemaTree.mem_names_meaning.2 hname)
        (fun hallow hmem => hfresh hallow (SchemaTree.mem_names_meaning.1 hmem))
      have hlast : afterTree (tree.snoc message) = .nextMessage (tree.snoc message).meaning :=
        if_neg (by simp [SchemaTree.snoc])
      rw [SchemaTree.tokens_snoc, hlast, SchemaTree.meaning_snoc]
      exact ⟨_, hsteps.append hmessage⟩

/-! ## Soundness -/

end State

/-- `place.Spells declared read` says that the tokens `read` are the part of a field up to `place`,
with its type in scope. -/
inductive FieldPlace.Spells (declared : List String) : FieldPlace → List Token → Prop where
  | start : Spells declared .start []
  | afterRepeated (line) : Spells declared .afterRepeated [.reserved "repeated" line]
  | afterType (line : Option Int) (type : TypeTree) :
      type.Scoped declared →
      Spells declared (.afterType line.isSome type.meaning)
        ((line.map (Token.reserved "repeated")).toList ++ [type.token])
  | afterName (tree : FieldTree) :
      tree.type.Scoped declared → Spells declared (.afterName tree.meaning) tree.headTokens
  | afterEquals (tree : FieldTree) (line) :
      tree.type.Scoped declared →
      Spells declared (.afterEquals tree.meaning) (tree.headTokens ++ [.reserved "=" line])
  | afterNumber (tree : FieldTree) (line) (number : Word) :
      tree.type.Scoped declared →
      Spells declared (.afterNumber tree.meaning)
        (tree.headTokens ++ [.reserved "=" line, number.number])

namespace State

/-- The tokens of the messages before an open one, and of its head. -/
def openTokens (tree : SchemaTree) (line : Int) (name : Word) : List Token :=
  tree.tokens ++ [.reserved "message" line, name.identifier]

/-- `state.Spells allow read` says which part of an admissible schema the tokens `read` up to
`state` are. -/
inductive Spells (allowRedefinition : Bool) : State → List Token → Prop where
  | start : Spells allowRedefinition .start []
  | packageName (line) :
      Spells allowRedefinition .packageName [.reserved "package" line]
  | packageEnd (line) (name : Word) :
      Spells allowRedefinition (.packageEnd name.text)
        [.reserved "package" line, name.identifier]
  | firstMessage (tree : SchemaTree) :
      tree.messages = [] → Spells allowRedefinition (.firstMessage tree.package.text) tree.tokens
  | nextMessage (tree : SchemaTree) :
      tree.messages ≠ [] → tree.Admissible allowRedefinition →
      Spells allowRedefinition (.nextMessage tree.meaning) tree.tokens
  | messageName (tree : SchemaTree) (line) :
      tree.Admissible allowRedefinition →
      Spells allowRedefinition (.messageName tree.meaning)
        (tree.tokens ++ [.reserved "message" line])
  | messageOpen (tree : SchemaTree) (line) (name : Word) :
      tree.Admissible allowRedefinition →
      (allowRedefinition = false → name.text ∉ tree.names) →
      Spells allowRedefinition (.messageOpen tree.meaning name.identifier)
        (openTokens tree line name)
  | messageBody (tree : SchemaTree) (line) (name : Word) (openLine) (fields : List FieldTree)
      (place part) :
      tree.Admissible allowRedefinition →
      (allowRedefinition = false → name.text ∉ tree.names) →
      (∀ field ∈ fields, field.type.Scoped tree.names) →
      place.Spells tree.names part →
      Spells allowRedefinition
        (.messageBody tree.meaning name.identifier (fields.map FieldTree.meaning) place)
        (openTokens tree line name ++
          .reserved "\x7b" openLine :: (fields.flatMap FieldTree.tokens ++ part))

/-- A token that leads to a further place of a field goes on with the body of the message. -/
theorem Spells.place {name token : Token} {fields : List Field} {place next : FieldPlace}
    {read : List Token}
    (h : Spells allowRedefinition (.messageBody declared name fields place) read)
    (hnext : ∀ names part, (∀ known ∈ declared.messages.names, known ∈ names) →
      place.Spells names part → next.Spells names (part ++ [token])) :
    Spells allowRedefinition (.messageBody declared name fields next) (read ++ [token]) := by
  cases h with
  | messageBody tree line name openLine fields place part hadmissible hfresh hscoped hplace =>
      rw [List.append_assoc, List.cons_append, List.append_assoc]
      refine .messageBody tree line name openLine fields next (part ++ [token]) hadmissible hfresh
        hscoped (hnext tree.names part ?_ hplace)
      exact fun known hknown => SchemaTree.mem_names_meaning.1 hknown

/-- A token that ends a field adds the field to the body of the message. -/
theorem Spells.field {name token : Token} {fields : List Field} {field : Field}
    {place : FieldPlace} {read : List Token}
    (h : Spells allowRedefinition (.messageBody declared name fields place) read)
    (hfield : ∀ names part, place.Spells names part →
      ∃ tree : FieldTree, tree.type.Scoped names ∧ tree.meaning = field ∧
        tree.tokens = part ++ [token]) :
    Spells allowRedefinition (.messageBody declared name (fields ++ [field]) .start)
      (read ++ [token]) := by
  cases h with
  | messageBody tree line name openLine fields place part hadmissible hfresh hscoped hplace =>
      obtain ⟨last, hlast, rfl, htokens⟩ := hfield tree.names part hplace
      have hbody := Spells.messageBody tree line name openLine (fields ++ [last]) .start []
        hadmissible hfresh
        (fun other hmem => (List.mem_append.1 hmem).elim (hscoped other)
          fun hother => List.mem_singleton.1 hother ▸ hlast)
        .start
      simpa [htokens] using hbody

/-- The table of a message that is being read is indexed. -/
theorem Spells.indexed {name : Token} {fields : List Field} {place : FieldPlace}
    {read : List Token}
    (h : Spells allowRedefinition (.messageBody declared name fields place) read) :
    declared.messages.Indexed := by
  cases h with
  | messageBody tree => exact tree.indexed_meaning

/-- The closing brace of a message adds the message to the schema. -/
theorem Spells.close {name : Token} {fields : List Field} {read : List Token} (closeLine : Int)
    (h : Spells allowRedefinition (.messageBody declared name fields .start) read) :
    Spells allowRedefinition (closeMessage declared name fields).1
      (read ++ [.reserved "\x7d" closeLine]) := by
  cases h with
  | messageBody tree line name openLine fields place part hadmissible hfresh hscoped hplace =>
      cases hplace
      have hnext := Spells.nextMessage (tree.snoc ⟨line, name, openLine, fields, closeLine⟩)
        (by simp [SchemaTree.snoc]) (SchemaTree.admissible_snoc.2 ⟨hadmissible, hscoped, hfresh⟩)
      rw [SchemaTree.meaning_snoc, SchemaTree.tokens_snoc] at hnext
      have hread : openTokens tree line name ++ .reserved "\x7b" openLine ::
          (fields.flatMap FieldTree.tokens ++ []) ++ [.reserved "\x7d" closeLine] =
            tree.tokens ++ MessageTree.tokens ⟨line, name, openLine, fields, closeLine⟩ := by
        simp [openTokens, MessageTree.tokens]
      rw [hread]
      exact hnext

/-- Every transition keeps what the tokens read so far spell. -/
theorem Spells.step {state next : State} {read : List Token} {token : Token}
    {events : List Event} (h : Spells allowRedefinition state read)
    (hstep : Step allowRedefinition state token next events) :
    Spells allowRedefinition next (read ++ [token]) := by
  cases hstep with
  | package line =>
      cases h
      exact .packageName line
  | packageName name =>
      cases h with
      | packageName line => exact .packageEnd line name
  | packageEnd package endLine =>
      cases h with
      | packageEnd line name => exact .firstMessage ⟨line, name, endLine, []⟩ rfl
  | firstMessage package line =>
      cases h with
      | firstMessage tree hempty =>
          -- The schema without messages is what the package clause means.
          rw [← SchemaTree.meaning_of_messages_eq_nil hempty]
          refine .messageName tree line ⟨?_, fun _ => ?_⟩
          · rw [hempty]
            trivial
          · simp [SchemaTree.names, hempty]
  | nextMessage declared line =>
      cases h with
      | nextMessage tree _ hadmissible => exact .messageName tree line hadmissible
  | messageName declared name hfresh =>
      cases h with
      | messageName tree line hadmissible =>
          rw [List.append_assoc]
          refine .messageOpen tree line name hadmissible fun hallow hmem => ?_
          -- A declared name is known to the table, and the transition asks for an unknown one.
          have hknown := (tree.indexed_meaning.contains_iff name.text).2
            (SchemaTree.mem_names_meaning.2 hmem)
          rw [hfresh hallow] at hknown
          cases hknown
  | messageOpen declared name openLine =>
      cases h with
      | messageOpen tree line name hadmissible hfresh =>
          exact .messageBody tree line name openLine [] .start [] hadmissible hfresh (by simp)
            .start
  | messageClose declared name fields line => exact h.close line
  | fieldRepeated declared name fields line =>
      refine h.place fun names part _ hplace => ?_
      cases hplace
      exact .afterRepeated line
  | fieldType declared name fields token type htype =>
      obtain ⟨tree, rfl, rfl, hscoped⟩ := (FieldType.ofToken?_eq_some_iff h.indexed).1 htype
      refine h.place fun names part hnames hplace => ?_
      cases hplace
      exact .afterType none tree (hscoped.mono hnames)
  | fieldRepeatedType declared name fields token type htype =>
      obtain ⟨tree, rfl, rfl, hscoped⟩ := (FieldType.ofToken?_eq_some_iff h.indexed).1 htype
      refine h.place fun names part hnames hplace => ?_
      cases hplace with
      | afterRepeated line => exact .afterType (some line) tree (hscoped.mono hnames)
  | fieldName declared name fields repeated type identifier =>
      refine h.place fun names part _ hplace => ?_
      cases hplace with
      | afterType line tree hscoped =>
          rw [List.append_assoc]
          exact .afterName ⟨line, tree, identifier, none, 0⟩ hscoped
  | fieldEquals declared name fields field line =>
      refine h.place fun names part _ hplace => ?_
      cases hplace with
      | afterName tree hscoped => exact .afterEquals tree line hscoped
  | fieldNumber declared name fields field number =>
      refine h.place fun names part _ hplace => ?_
      cases hplace with
      | afterEquals tree line hscoped =>
          rw [List.append_assoc]
          exact .afterNumber tree line number hscoped
  | fieldEnd declared name fields field line =>
      refine h.field fun names part hplace => ?_
      cases hplace with
      | afterName tree hscoped =>
          refine ⟨{ tree with number := none, endLine := line }, hscoped, rfl, ?_⟩
          simp [FieldTree.tokens, FieldTree.headTokens, FieldTree.numberTokens]
  | numberedFieldEnd declared name fields field endLine =>
      refine h.field fun names part hplace => ?_
      cases hplace with
      | afterNumber tree line number hscoped =>
          refine ⟨{ tree with number := some (line, number), endLine }, hscoped, rfl, ?_⟩
          simp [FieldTree.tokens, FieldTree.headTokens, FieldTree.numberTokens]

/-- Transitions keep what the tokens read so far spell. -/
theorem Spells.steps {state next : State} {read more : List Token} {events : List Event}
    (h : Spells allowRedefinition state read)
    (hsteps : Steps allowRedefinition state more next events) :
    Spells allowRedefinition next (read ++ more) := by
  induction hsteps generalizing read with
  | refl state => rwa [List.append_nil]
  | cons hstep _ ih =>
      have hrest := ih (h.step hstep)
      rwa [List.append_assoc] at hrest

end State

/-! ## The main results -/

/-- A token list is read as a schema exactly when it is the tokens of an admissible derivation tree
before the end of the input, and then the schema is what the tree means. -/
theorem Schema.ofTokens_eq_ok {allowRedefinition : Bool} {tokens : List Token} {schema : Schema} :
    (Schema.ofTokens allowRedefinition tokens).result = .ok schema ↔
      ∃ (tree : SchemaTree) (rest : List Token), tokens = tree.tokens ++ rest ∧ EndsInput rest ∧
        tree.messages ≠ [] ∧ tree.Admissible allowRedefinition ∧ schema = tree.meaning := by
  rw [Schema.ofTokens, State.run_eq_ok_iff]
  constructor
  · rintro ⟨read, rest, events, rfl, hrest, hsteps⟩
    have hspells := State.Spells.start.steps hsteps
    rw [List.nil_append] at hspells
    cases hspells with
    | nextMessage tree hmessages hadmissible =>
        exact ⟨tree, rest, rfl, hrest, hmessages, hadmissible, rfl⟩
  · rintro ⟨tree, rest, rfl, hrest, hmessages, hadmissible, rfl⟩
    obtain ⟨events, hsteps⟩ := State.steps_schema tree hadmissible
    rw [State.afterTree, if_neg hmessages] at hsteps
    exact ⟨tree.tokens, rest, events, rfl, hrest, hsteps⟩

/-- The parser accepts exactly its scoped grammar: it succeeds exactly when the tokens before the
end of the input derive from it, the derivation is then the only one, and the schema is what it
means: the package, and the messages in the order of their first declaration, each with the fields
of its last one. -/
theorem parser_accepts_exactly_grammar (options : Options) (tokens : List Token) :
    (∀ schema : Schema, (Schema.ofTokens options.allowRedefinition tokens).result = .ok schema ↔
      ∃ (tree : SchemaTree) (rest : List Token), tokens = tree.tokens ++ rest ∧ EndsInput rest ∧
        tree.messages ≠ [] ∧ tree.Admissible options.allowRedefinition ∧
        schema = tree.meaning) ∧
    ∀ (first second : SchemaTree) (rest other : List Token),
      tokens = first.tokens ++ rest → EndsInput rest →
      tokens = second.tokens ++ other → EndsInput other → first = second ∧ rest = other := by
  refine ⟨fun schema => Schema.ofTokens_eq_ok, ?_⟩
  intro first second rest other hfirst hrest hsecond hother
  exact SchemaTree.tokens_append_inj hrest hother (hfirst.symm.trans hsecond)

/-- The parser reads a schema that declares a message again, with a field of its own type, and that
goes on after the end of the input. -/
theorem parser_accepts_redeclared_message :
    (Schema.ofTokens true
      [.reserved "package" 1, ⟨"p", .identifier, 1⟩, .reserved ";" 1,
       .reserved "message" 2, ⟨"A", .identifier, 2⟩, .reserved "\x7b" 2,
       .reserved "bool" 2, ⟨"x", .identifier, 2⟩, .reserved "=" 2, ⟨"1", .number, 2⟩,
       .reserved ";" 2, .reserved "\x7d" 2,
       .reserved "message" 3, ⟨"B", .identifier, 3⟩, .reserved "\x7b" 3, .reserved "\x7d" 3,
       .reserved "message" 4, ⟨"A", .identifier, 4⟩, .reserved "\x7b" 4,
       .reserved "repeated" 4, ⟨"A", .identifier, 4⟩, ⟨"a", .identifier, 4⟩,
       .reserved ";" 4, .reserved "\x7d" 4,
       .endOfInput, ⟨"C", .identifier, 5⟩]).result =
      .ok ⟨"p", .listing [⟨"A", [⟨"a", .message "A", true, "A"⟩]⟩, ⟨"B", []⟩]⟩ := by
  refine ((parser_accepts_exactly_grammar { allowRedefinition := true } _).1 _).2
    ⟨⟨1, ⟨"p", 1⟩, 1,
      [⟨2, ⟨"A", 2⟩, 2, [⟨none, .primitive .bool 2, ⟨"x", 2⟩, some (2, ⟨"1", 2⟩), 2⟩], 2⟩,
       ⟨3, ⟨"B", 3⟩, 3, [], 3⟩,
       ⟨4, ⟨"A", 4⟩, 4, [⟨some 4, .message ⟨"A", 4⟩, ⟨"a", 4⟩, none, 4⟩], 4⟩]⟩,
      [.endOfInput, ⟨"C", .identifier, 5⟩], rfl, rfl, by simp, ⟨?_, by simp⟩, ?_⟩
  · simp [MessageTree.ScopedAfter, MessageTree.Scoped, TypeTree.Scoped]
  · exact congrArg (fun messages => Schema.mk "p" (.listing messages)) (by decide)

end SchemaCompiler
