import SchemaCompiler.Proofs.DeclarationOrder
import SchemaCompiler.Proofs.TokenSpelling

/-!
# Which schemas are compiled

`Schema.Closed` says what every compiled schema is: its names are identifiers, its message names are
different, and its types name its own messages. With redefinitions every closed schema is compiled
from some text, and without them every closed schema that defines its messages before their use.

That a compiled schema is closed follows from the spelling of its tokens
(`SchemaTree.closed_meaning`). For the converse, `SchemaTree.onOneLine` writes declarations as a
tree. A closed schema whose messages use each other in any order is spelled by declaring every name
without fields first, and every message again after that (`forwardDeclarations`): a redefinition
keeps the place of the first declaration, and all names are known to it.
-/

namespace SchemaCompiler

/-- The schemas that can be spelled. The index of the table is the one that its messages give
(`listed`), there is a message, and no two messages have the same name. The names of the package, of
the messages and of the fields are identifiers, every member is declared with the native type of its
field (`labels`), and every message type names a message of the schema (`inScope`). -/
structure Schema.Closed (schema : Schema) : Prop where
  listed : schema.messages = .listing schema.messages.messages
  nonempty : schema.messages.messages ≠ []
  distinct : schema.messages.names.Nodup
  package : IsIdentifier schema.package
  messageNames : ∀ message ∈ schema.messages.messages, IsIdentifier message.identifier
  fieldNames : ∀ message ∈ schema.messages.messages, ∀ field ∈ message.fields,
    IsIdentifier field.identifier
  labels : ∀ message ∈ schema.messages.messages, ∀ field ∈ message.fields,
    field.label = field.type.nativeType
  inScope : ∀ message ∈ schema.messages.messages, ∀ field ∈ message.fields, ∀ name,
    field.type = .message name → name ∈ schema.messages.names

/-- The schema of a text is what its tokens are read as. -/
theorem compileSchema_eq_ok_iff {options : Options} {text : String} {schema : Schema} :
    (compileSchema options text).result = .ok schema ↔
      ∃ tokens, Token.scan text = .ok tokens ∧
        (Schema.ofTokens options.allowRedefinition tokens).result = .ok schema := by
  unfold compileSchema Logged.andThen
  cases hscan : (tokenize text).result with
  | error error =>
      have hfails (tokens : List Token) : Token.scan text ≠ .ok tokens := by
        intro hok
        rw [tokenize_eq_ok_iff.2 hok] at hscan
        cases hscan
      simp [hfails]
  | ok tokens =>
      rw [tokenize_eq_ok_iff.1 hscan]
      cases hparse : (Schema.ofTokens options.allowRedefinition tokens).result with
      | error error => simp [Logged.after, Logged.mapError, hparse, Except.mapError]
      | ok found => simp [Logged.after, Logged.mapError, hparse, Except.mapError]

/-- A text that is split into tokens is compiled as its tokens are read. -/
theorem compileSchema_of_scan {text : String} {tokens : List Token}
    (h : Token.scan text = .ok tokens) (options : Options) :
    (compileSchema options text).result =
      (Schema.ofTokens options.allowRedefinition tokens).result.mapError .parse := by
  rw [compileSchema, Logged.andThen, tokenize_eq_ok_iff.2 h]
  rfl

/-- A text that cannot be split into tokens is not compiled. -/
theorem compileSchema_of_scan_error {text : String} {error : ScanError}
    (h : Token.scan text = .error error) (options : Options) :
    (compileSchema options text).result = .error (.scan error) := by
  rw [compileSchema, tokenize, h]
  rfl

/-- The header of a text that is compiled is that of its schema. -/
theorem compileHeader_of_compileSchema {options : Options} {text : String} {schema : Schema}
    (h : (compileSchema options text).result = .ok schema) :
    (compileHeader options text).result = .ok (Header.text options schema) := by
  rw [compileHeader, Logged.andThen, h]
  rfl

/-- A header of a text is that of its schema. -/
theorem exists_schema_of_compileHeader {options : Options} {text header : String}
    (h : (compileHeader options text).result = .ok header) :
    ∃ schema, (compileSchema options text).result = .ok schema ∧
      Header.text options schema = header := by
  cases hschema : (compileSchema options text).result with
  | error error =>
      rw [compileHeader, Logged.andThen, hschema] at h
      cases h
  | ok schema =>
      rw [compileHeader_of_compileSchema hschema] at h
      exact ⟨schema, rfl, Except.ok.inj h⟩

/-- The dump of a text that is compiled is that of its schema. -/
theorem compileDump_of_compileSchema {options : Options} {text : String} {schema : Schema}
    (h : (compileSchema options text).result = .ok schema) :
    (compileDump options text).result = .ok schema.dump := by
  rw [compileDump, Logged.andThen, h]
  rfl

/-! ## Compiled schemas are closed -/

namespace SchemaTree

variable {tree : SchemaTree}

/-- A message of the schema that is meant is one of the declarations. -/
theorem exists_of_mem_meaning {message : Message}
    (h : message ∈ tree.meaning.messages.messages) :
    ∃ messageTree ∈ tree.messages, messageTree.meaning = message :=
  List.mem_map.1 (lastDeclaration?_eq_some (mem_lastDeclarations.1 h)).1

/-- The tokens of a message are tokens of the schema. -/
theorem mem_tokens_of_message {message : MessageTree} {token : Token}
    (hmessage : message ∈ tree.messages) (h : token ∈ message.tokens) : token ∈ tree.tokens :=
  List.mem_append_right _ (List.mem_flatMap.2 ⟨message, hmessage, h⟩)

/-- The tokens of a field are tokens of its message. -/
theorem mem_tokens_of_field {message : MessageTree} {field : FieldTree} {token : Token}
    (hfield : field ∈ message.fields) (h : token ∈ field.tokens) : token ∈ message.tokens := by
  have hfields : token ∈ message.fields.flatMap FieldTree.tokens :=
    List.mem_flatMap.2 ⟨field, hfield, h⟩
  simp [MessageTree.tokens, hfields]

/-- The schema that well spelled tokens mean is closed. -/
theorem closed_meaning {allowRedefinition : Bool} (hadmissible : tree.Admissible allowRedefinition)
    (hmessages : tree.messages ≠ []) (hspelled : ∀ token ∈ tree.tokens, token.WellSpelled) :
    tree.meaning.Closed := by
  have hword (name : Word) (hmem : name.identifier ∈ tree.tokens) : IsIdentifier name.text :=
    hspelled name.identifier hmem
  refine ⟨rfl, ?_, tree.indexed_meaning.names_nodup, ?_, ?_, ?_, tree.label_meaning, ?_⟩
  · obtain ⟨message, hmessage⟩ := List.exists_mem_of_ne_nil _ hmessages
    have hname : message.name.text ∈ tree.meaning.messages.names :=
      mem_names_meaning.2 (List.mem_map.2 ⟨message, hmessage, rfl⟩)
    intro hempty
    rw [MessageTable.names, hempty] at hname
    cases hname
  · exact hword tree.package (by simp [tokens, packageTokens])
  · intro message hmem
    obtain ⟨messageTree, hmessage, rfl⟩ := exists_of_mem_meaning hmem
    exact hword messageTree.name
      (mem_tokens_of_message hmessage (by simp [MessageTree.tokens]))
  · intro message hmem field hfield
    obtain ⟨messageTree, hmessage, rfl⟩ := exists_of_mem_meaning hmem
    obtain ⟨fieldTree, hfieldTree, rfl⟩ := List.mem_map.1 hfield
    refine hword fieldTree.name (mem_tokens_of_message hmessage
      (mem_tokens_of_field hfieldTree ?_))
    simp [FieldTree.tokens, FieldTree.headTokens]
  · intro message hmem field hfield name htype
    obtain ⟨before, after, hnames, hused⟩ :=
      hadmissible.used_before ⟨message, hmem, rfl, field, hfield, htype⟩
    rw [mem_names_meaning, hnames]
    exact List.mem_append_left _ hused

/-- Without redefinitions an admissible schema defines its messages before their use. -/
theorem Admissible.definesBeforeUse (hadmissible : tree.Admissible false) :
    tree.meaning.DefinesBeforeUse := by
  refine (hadmissible.definesBeforeUse_iff.2 fun user htwice => ?_).1
  have honce := List.nodup_iff_count_le_one.1 (hadmissible.distinct rfl) user
  omega

end SchemaTree

/-- No token that transitions lead over ends the input. -/
theorem State.Steps.kind_ne_endOfInput {allowRedefinition : Bool} {state next : State}
    {read : List Token} {events : List Event} (h : Steps allowRedefinition state read next events) :
    ∀ token ∈ read, token.kind ≠ .endOfInput := by
  induction h with
  | refl state => simp
  | cons hstep _ ih => exact List.forall_mem_cons.2 ⟨hstep.kind_ne_endOfInput, ih⟩

/-- The schema of a text is what an admissible tree with well spelled tokens means. -/
theorem exists_tree_of_compileSchema {options : Options} {text : String} {schema : Schema}
    (h : (compileSchema options text).result = .ok schema) :
    ∃ tree : SchemaTree, tree.Admissible options.allowRedefinition ∧ tree.messages ≠ [] ∧
      (∀ token ∈ tree.tokens, token.WellSpelled) ∧ schema = tree.meaning := by
  obtain ⟨tokens, hscan, hparse⟩ := compileSchema_eq_ok_iff.1 h
  obtain ⟨tree, rest, rfl, -, hmessages, hadmissible, rfl⟩ := Schema.ofTokens_eq_ok.1 hparse
  obtain ⟨words, hwords, hinOrder⟩ := Token.lexical_of_scan hscan
  refine ⟨tree, hadmissible, hmessages, fun token hmem => ?_, rfl⟩
  -- A token of the tree does not end the input, so it is one of the well spelled ones.
  have hall : token ∈ words ++ [.endOfInput] := hwords ▸ List.mem_append_left rest hmem
  obtain ⟨events, hsteps⟩ := State.steps_schema tree hadmissible
  rcases List.mem_append.1 hall with hword | hend
  · exact hinOrder.wellSpelled token hword
  · obtain rfl := List.mem_singleton.1 hend
    exact absurd rfl (hsteps.kind_ne_endOfInput _ hmem)

/-- Every compiled schema is closed. -/
theorem closed_of_compileSchema {options : Options} {text : String} {schema : Schema}
    (h : (compileSchema options text).result = .ok schema) : schema.Closed := by
  obtain ⟨tree, hadmissible, hmessages, hspelled, rfl⟩ := exists_tree_of_compileSchema h
  exact tree.closed_meaning hadmissible hmessages hspelled

/-! ## Closed schemas are compiled -/

/-- The type as a tree on the first line. -/
def FieldType.tree : FieldType → TypeTree
  | primitive type => .primitive type 1
  | message name => .message ⟨name, 1⟩

/-- The field as a tree on the first line, without a number. -/
def Field.tree (field : Field) : FieldTree where
  repeatedLine := if field.repeated then some 1 else none
  type := field.type.tree
  name := ⟨field.identifier, 1⟩
  number := none
  endLine := 1

/-- The message as a tree on the first line. -/
def Message.tree (message : Message) : MessageTree where
  keywordLine := 1
  name := ⟨message.identifier, 1⟩
  openLine := 1
  fields := message.fields.map Field.tree
  closeLine := 1

/-- A package clause and declarations as a tree on the first line. -/
def SchemaTree.onOneLine (package : String) (declared : List Message) : SchemaTree where
  packageLine := 1
  package := ⟨package, 1⟩
  packageEndLine := 1
  messages := declared.map Message.tree

/-- Every name without fields, and then every message. -/
def forwardDeclarations (messages : List Message) : List Message :=
  messages.map (fun message => { message with fields := [] }) ++ messages

/-- A type that can be spelled: if it is a message, then its name is an identifier. -/
def FieldType.Spellable (type : FieldType) : Prop :=
  ∀ name, type = .message name → IsIdentifier name

/-- A field whose name and type can be spelled and whose member is declared with its own type. -/
structure Field.Spellable (field : Field) : Prop where
  name : IsIdentifier field.identifier
  type : field.type.Spellable
  label : field.label = field.type.nativeType

/-- A message whose name and fields can be spelled. -/
structure Message.Spellable (message : Message) : Prop where
  name : IsIdentifier message.identifier
  fields : ∀ field ∈ message.fields, field.Spellable

/-- The messages of a closed schema can be spelled. -/
theorem Schema.Closed.spellable {schema : Schema} (h : schema.Closed) :
    ∀ message ∈ schema.messages.messages, message.Spellable := by
  intro message hmem
  refine ⟨h.messageNames message hmem, fun field hfield => ?_⟩
  refine ⟨h.fieldNames message hmem field hfield, fun name htype => ?_,
    h.labels message hmem field hfield⟩
  obtain ⟨used, hused, rfl⟩ := List.mem_map.1 (h.inScope message hmem field hfield name htype)
  exact h.messageNames used hused

/-- The forward declarations of a closed schema can be spelled. -/
theorem Schema.Closed.spellable_forwardDeclarations {schema : Schema} (h : schema.Closed) :
    ∀ message ∈ forwardDeclarations schema.messages.messages, message.Spellable := by
  intro message hmem
  rcases List.mem_append.1 hmem with hfirst | hmessage
  · obtain ⟨declaration, hdeclaration, rfl⟩ := List.mem_map.1 hfirst
    exact ⟨h.messageNames declaration hdeclaration, by simp⟩
  · exact h.spellable message hmessage

/-! ### What the trees mean -/

/-- The tree of a type means it. -/
theorem FieldType.meaning_tree (type : FieldType) : type.tree.meaning = type := by
  cases type <;> rfl

/-- The tree of a field that can be spelled means it. -/
theorem Field.Spellable.meaning_tree {field : Field} (h : field.Spellable) :
    field.tree.meaning = field := by
  obtain ⟨identifier, type, repeated, label⟩ := field
  obtain rfl : label = type.nativeType := h.label
  cases repeated <;> simp [Field.tree, FieldTree.meaning, FieldType.meaning_tree]

/-- The tree of a message that can be spelled means it. -/
theorem Message.Spellable.meaning_tree {message : Message} (h : message.Spellable) :
    message.tree.meaning = message := by
  have hfields : (message.fields.map Field.tree).map FieldTree.meaning = message.fields := by
    rw [List.map_map]
    exact (List.map_congr_left fun field hfield => (h.fields field hfield).meaning_tree).trans
      (List.map_id _)
  rw [tree, MessageTree.meaning, hfields]

/-- The names of a list of declarations on one line. -/
theorem SchemaTree.names_onOneLine (package : String) (declared : List Message) :
    (onOneLine package declared).names = declared.map (·.identifier) := by
  rw [names, onOneLine, List.map_map]
  rfl

/-- Declarations that can be spelled are what their tree declares. -/
theorem SchemaTree.declarations_onOneLine (package : String) {declared : List Message}
    (h : ∀ message ∈ declared, message.Spellable) :
    (onOneLine package declared).declarations = declared := by
  rw [declarations, onOneLine, List.map_map]
  exact (List.map_congr_left fun message hmem => (h message hmem).meaning_tree).trans
    (List.map_id _)

/-- Different names are not changed when the later occurrences of each are erased. -/
theorem eraseDups_of_nodup {names : List String} (h : names.Nodup) : names.eraseDups = names := by
  induction names with
  | nil => rfl
  | cons name rest ih =>
      obtain ⟨hname, hrest⟩ := List.nodup_cons.1 h
      have hkept : rest.filter (fun other => !other == name) = rest := by
        refine List.filter_eq_self.2 fun other hother => ?_
        have hne : other ≠ name := fun heq => hname (heq ▸ hother)
        simp [hne]
      rw [List.eraseDups_cons, hkept, ih hrest]

/-- A declaration is the last one of its name if no later one has the name. -/
theorem lastDeclaration?_append_cons {before after : List Message} {message : Message}
    (h : message.identifier ∉ after.map (·.identifier)) :
    lastDeclaration? (before ++ message :: after) message.identifier = some message := by
  have hafter : after.filter (·.identifier == message.identifier) = [] := by
    refine List.filter_eq_nil_iff.2 fun other hother heq => h ?_
    exact List.mem_map.2 ⟨other, hother, by simpa using heq⟩
  simp [lastDeclaration?, hafter]

/-- Declarations with different names replace earlier ones of the same names in the same order. -/
theorem lastDeclarations_append (earlier : List Message) {later : List Message}
    (hnodup : (later.map (·.identifier)).Nodup)
    (hnames : ((earlier ++ later).map (·.identifier)).eraseDups = later.map (·.identifier)) :
    lastDeclarations (earlier ++ later) = later := by
  have hlast : ∀ message ∈ later,
      lastDeclaration? (earlier ++ later) message.identifier = some message := by
    intro message hmem
    obtain ⟨before, after, rfl⟩ := List.append_of_mem hmem
    rw [← List.append_assoc]
    refine lastDeclaration?_append_cons ?_
    rw [List.map_append, List.map_cons] at hnodup
    exact (List.nodup_cons.1 hnodup.of_append_right).1
  rw [lastDeclarations, hnames, List.filterMap_map]
  exact (List.filterMap_congr hlast).trans List.filterMap_some

/-- Declarations with different names mean themselves. -/
theorem lastDeclarations_of_nodup {messages : List Message}
    (h : (messages.map (·.identifier)).Nodup) : lastDeclarations messages = messages :=
  lastDeclarations_append [] h (eraseDups_of_nodup h)

/-- Forward declarations mean the messages. -/
theorem lastDeclarations_forwardDeclarations {messages : List Message}
    (h : (messages.map (·.identifier)).Nodup) :
    lastDeclarations (forwardDeclarations messages) = messages := by
  refine lastDeclarations_append _ h ?_
  have hnone : (messages.map (·.identifier)).removeAll (messages.map (·.identifier)) = [] := by
    simp [List.removeAll, List.filter_eq_nil_iff]
  rw [List.map_append, List.map_map]
  show (messages.map (·.identifier) ++ messages.map (·.identifier)).eraseDups = _
  rw [List.eraseDups_append, hnone, eraseDups_of_nodup h, List.eraseDups_nil, List.append_nil]

/-- Declarations on one line mean the schema that lists the last ones. -/
theorem Schema.Closed.meaning_onOneLine {schema : Schema} (h : schema.Closed)
    {declared : List Message} (hspellable : ∀ message ∈ declared, message.Spellable)
    (hlast : lastDeclarations declared = schema.messages.messages) :
    (SchemaTree.onOneLine schema.package declared).meaning = schema := by
  rw [SchemaTree.meaning, SchemaTree.declarations_onOneLine _ hspellable, hlast, ← h.listed]
  rfl

/-! ### The trees are in scope -/

/-- The tree of a type is in scope if the message that it names is declared. -/
theorem FieldType.scoped_tree {declared : List String} {type : FieldType}
    (h : ∀ name, type = .message name → name ∈ declared) : type.tree.Scoped declared := by
  cases type with
  | primitive type => trivial
  | message name => exact h name rfl

/-- The tree of a message is in scope if the messages that it uses are declared. -/
theorem Message.scoped_tree {declared : List String} {message : Message}
    (h : ∀ field ∈ message.fields, ∀ name, field.type = .message name → name ∈ declared) :
    message.tree.Scoped declared := by
  intro fieldTree hmem
  obtain ⟨field, hfield, rfl⟩ := List.mem_map.1 hmem
  exact FieldType.scoped_tree (h field hfield)

/-- Messages are in scope one after the other if each is after those before it. -/
theorem MessageTree.scopedAfter_of_append {declared : List String} {trees : List MessageTree}
    (h : ∀ before tree after, trees = before ++ tree :: after →
      tree.Scoped (declared ++ before.map (·.name.text))) : ScopedAfter declared trees := by
  induction trees generalizing declared with
  | nil => trivial
  | cons tree rest ih =>
      refine ⟨by simpa using h [] tree rest rfl, ih fun before other after hrest => ?_⟩
      have hother := h (tree :: before) other after (by rw [hrest, List.cons_append])
      simpa using hother

/-- The messages of a schema that defines them before their use are in scope in their order. -/
theorem Schema.DefinesBeforeUse.scopedAfter {schema : Schema} (h : schema.DefinesBeforeUse) :
    MessageTree.ScopedAfter [] (schema.messages.messages.map Message.tree) := by
  refine MessageTree.scopedAfter_of_append fun before tree after hsplit => ?_
  obtain ⟨earlier, rest, hmessages, rfl, hrest⟩ := List.map_eq_append_iff.1 hsplit
  obtain ⟨message, later, rfl, rfl, rfl⟩ := List.map_eq_cons_iff.1 hrest
  refine Message.scoped_tree fun field hfield name htype => ?_
  have hplace : schema.messages.messages[earlier.length]? = some message := by
    rw [hmessages]
    simp
  obtain ⟨place, hlt, hname⟩ := h earlier.length message hplace field hfield name htype
  -- The place before the message is one of the earlier messages.
  rw [MessageTable.names, hmessages, List.map_append,
    List.getElem?_append_left (by simpa using hlt)] at hname
  rw [List.nil_append, List.map_map]
  exact List.mem_of_getElem? hname

/-- Messages are in scope one after the other if each is without those before it. -/
theorem MessageTree.scopedAfter_of_forall {declared : List String} {trees : List MessageTree}
    (h : ∀ tree ∈ trees, tree.Scoped declared) : ScopedAfter declared trees := by
  refine scopedAfter_of_append fun before tree after hsplit field hfield => ?_
  have hscoped := h tree (by simp [hsplit]) field hfield
  exact hscoped.mono fun name hname => List.mem_append_left _ hname

/-- The forward declarations of a closed schema are in scope. -/
theorem Schema.Closed.scopedAfter_forwardDeclarations {schema : Schema} (h : schema.Closed) :
    MessageTree.ScopedAfter []
      ((forwardDeclarations schema.messages.messages).map Message.tree) := by
  rw [forwardDeclarations, List.map_append, MessageTree.scopedAfter_append, List.map_map]
  constructor
  · -- The first declarations have no fields.
    refine MessageTree.scopedAfter_of_forall fun tree hmem => ?_
    obtain ⟨message, -, rfl⟩ := List.mem_map.1 hmem
    exact Message.scoped_tree fun field hfield => by cases hfield
  · refine MessageTree.scopedAfter_of_forall fun tree hmem => ?_
    obtain ⟨message, hmessage, rfl⟩ := List.mem_map.1 hmem
    refine Message.scoped_tree fun field hfield name htype => ?_
    rw [List.nil_append, List.map_map]
    exact h.inScope message hmessage field hfield name htype

/-! ### The trees are well spelled -/

/-- A well spelled token on the first line. -/
def Token.OnFirstLine (token : Token) : Prop :=
  token.line = 1 ∧ token.WellSpelled

/-- Well spelled tokens on the first line are in order. -/
theorem Token.inOrder_of_onFirstLine {words : List Token} (h : ∀ token ∈ words, token.OnFirstLine) :
    InOrder 1 words := by
  refine ⟨fun token hmem => (h token hmem).2, fun token hmem => (h token hmem).1.ge, ?_⟩
  refine List.pairwise_of_forall_mem_list fun earlier hearlier later hlater => ?_
  rw [(h earlier hearlier).1, (h later hlater).1]

/-- A reserved word that opens no comment is well spelled on the first line. -/
theorem Token.onFirstLine_reserved {word : String}
    (h : word ∈ reservedWords ∧ word ≠ commentMark) : (Token.reserved word 1).OnFirstLine :=
  ⟨rfl, h⟩

/-- A name that is an identifier is well spelled on the first line. -/
theorem Token.onFirstLine_identifier {name : String} (h : IsIdentifier name) :
    (Word.identifier ⟨name, 1⟩).OnFirstLine :=
  ⟨rfl, h⟩

/-- The token of a type that can be spelled is well spelled. -/
theorem FieldType.Spellable.onFirstLine {type : FieldType} (h : type.Spellable) :
    type.tree.token.OnFirstLine := by
  cases type with
  | primitive type =>
      refine Token.onFirstLine_reserved ?_
      cases type <;> decide
  | message name => exact Token.onFirstLine_identifier (h name rfl)

/-- The tokens of a field that can be spelled are well spelled. -/
theorem Field.Spellable.onFirstLine {field : Field} (h : field.Spellable) :
    ∀ token ∈ field.tree.tokens, token.OnFirstLine := by
  have htype := h.type.onFirstLine
  have hname := Token.onFirstLine_identifier h.name
  have hrepeated : (Token.reserved "repeated" 1).OnFirstLine :=
    Token.onFirstLine_reserved (by decide)
  have hend : (Token.reserved ";" 1).OnFirstLine := Token.onFirstLine_reserved (by decide)
  unfold Field.tree FieldTree.tokens FieldTree.headTokens FieldTree.numberTokens
  cases field.repeated with
  | false => simp [htype, hname, hend]
  | true => simp [hrepeated, htype, hname, hend]

/-- The tokens of a message that can be spelled are well spelled. -/
theorem Message.Spellable.onFirstLine {message : Message} (h : message.Spellable) :
    ∀ token ∈ message.tree.tokens, token.OnFirstLine := by
  intro token hmem
  simp only [MessageTree.tokens, List.mem_cons, List.mem_append, List.mem_flatMap,
    List.not_mem_nil, or_false] at hmem
  rcases hmem with rfl | rfl | rfl | ⟨fieldTree, hfieldTree, htoken⟩ | rfl
  · exact Token.onFirstLine_reserved (by decide)
  · exact Token.onFirstLine_identifier h.name
  · exact Token.onFirstLine_reserved (by decide)
  · obtain ⟨field, hfield, rfl⟩ := List.mem_map.1 hfieldTree
    exact (h.fields field hfield).onFirstLine token htoken
  · exact Token.onFirstLine_reserved (by decide)

/-- The tokens of declarations that can be spelled are well spelled. -/
theorem SchemaTree.onFirstLine_onOneLine {package : String} {declared : List Message}
    (hpackage : IsIdentifier package) (h : ∀ message ∈ declared, message.Spellable) :
    ∀ token ∈ (onOneLine package declared).tokens, token.OnFirstLine := by
  intro token hmem
  rcases List.mem_append.1 hmem with hclause | hmessage
  · simp only [packageTokens, List.mem_cons, List.not_mem_nil, or_false] at hclause
    rcases hclause with rfl | rfl | rfl
    · exact Token.onFirstLine_reserved (by decide)
    · exact Token.onFirstLine_identifier hpackage
    · exact Token.onFirstLine_reserved (by decide)
  · obtain ⟨messageTree, hmessageTree, htoken⟩ := List.mem_flatMap.1 hmessage
    obtain ⟨message, hdeclared, rfl⟩ := List.mem_map.1 hmessageTree
    exact (h message hdeclared).onFirstLine token htoken

/-! ### The text of a tree -/

/-- An admissible tree whose tokens are in order is compiled from the text of its tokens. -/
theorem SchemaTree.compileSchema_layOut {tree : SchemaTree} {options : Options}
    (hadmissible : tree.Admissible options.allowRedefinition) (hmessages : tree.messages ≠ [])
    (hinOrder : Token.InOrder 1 tree.tokens) :
    (compileSchema options (Token.layOut (tree.tokens ++ [.endOfInput]))).result =
      .ok tree.meaning :=
  compileSchema_eq_ok_iff.2 ⟨tree.tokens ++ [.endOfInput],
    Token.scan_layOut ⟨tree.tokens, rfl, hinOrder⟩,
    Schema.ofTokens_eq_ok.2 ⟨tree, [.endOfInput], rfl, rfl, hmessages, hadmissible, rfl⟩⟩

/-- A closed schema is compiled from a text of declarations that can be spelled, are in scope, and
of which the schema lists the last ones. -/
theorem Schema.Closed.exists_text {schema : Schema} (h : schema.Closed) {options : Options}
    {declared : List Message} (hspellable : ∀ message ∈ declared, message.Spellable)
    (hscoped : MessageTree.ScopedAfter [] (declared.map Message.tree))
    (hdistinct : options.allowRedefinition = false → (declared.map (·.identifier)).Nodup)
    (hlast : lastDeclarations declared = schema.messages.messages) :
    ∃ text, (compileSchema options text).result = .ok schema := by
  have hmessages : (SchemaTree.onOneLine schema.package declared).messages ≠ [] := by
    intro hempty
    obtain rfl : declared = [] := List.map_eq_nil_iff.1 hempty
    exact h.nonempty hlast.symm
  have hadmissible :
      (SchemaTree.onOneLine schema.package declared).Admissible options.allowRedefinition := by
    refine ⟨hscoped, fun hallow => ?_⟩
    rw [SchemaTree.names_onOneLine]
    exact hdistinct hallow
  have hinOrder := Token.inOrder_of_onFirstLine
    (SchemaTree.onFirstLine_onOneLine h.package hspellable)
  have hcompiled := SchemaTree.compileSchema_layOut hadmissible hmessages hinOrder
  rw [h.meaning_onOneLine hspellable hlast] at hcompiled
  exact ⟨_, hcompiled⟩

/-! ## The main result -/

/-- With redefinitions the schemas that are compiled are exactly the closed ones. Without them they
are exactly the closed ones that define their messages before their use. -/
theorem compiled_schemas_are_closed_schemas (options : Options) (schema : Schema) :
    ((∃ text, (compileSchema { options with allowRedefinition := true } text).result =
        .ok schema) ↔ schema.Closed) ∧
    ((∃ text, (compileSchema { options with allowRedefinition := false } text).result =
        .ok schema) ↔ schema.Closed ∧ schema.DefinesBeforeUse) := by
  constructor
  · constructor
    · rintro ⟨text, htext⟩
      exact closed_of_compileSchema htext
    · intro h
      -- Every name is declared before any message uses it, and declared again with its fields.
      exact h.exists_text h.spellable_forwardDeclarations h.scopedAfter_forwardDeclarations
        (fun hallow => by cases hallow) (lastDeclarations_forwardDeclarations h.distinct)
  · constructor
    · rintro ⟨text, htext⟩
      obtain ⟨tree, hadmissible, -, -, rfl⟩ := exists_tree_of_compileSchema htext
      exact ⟨closed_of_compileSchema htext, SchemaTree.Admissible.definesBeforeUse hadmissible⟩
    · rintro ⟨h, hdefines⟩
      exact h.exists_text h.spellable hdefines.scopedAfter
        (fun _ => h.distinct) (lastDeclarations_of_nodup h.distinct)

/-- Two messages of which each has a field of the other. -/
def mutualSchema : Schema where
  package := "p"
  messages :=
    .listing
      [⟨"A", [⟨"b", .message "B", false, "B"⟩]⟩, ⟨"B", [⟨"a", .message "A", true, "A"⟩]⟩]

/-- Messages that use each other are compiled from some text with redefinitions and from no text
without them. -/
theorem mutualSchema_compiled_with_redefinitions_only :
    (∃ text, (compileSchema { Options.default with allowRedefinition := true } text).result =
      .ok mutualSchema) ∧
    ¬ ∃ text, (compileSchema { Options.default with allowRedefinition := false } text).result =
      .ok mutualSchema := by
  have hclosed : mutualSchema.Closed := by
    refine ⟨rfl, by decide, by decide, by decide, by decide, by decide,
      by decide, ?_⟩
    intro message hmem field hfield name htype
    simp only [mutualSchema, MessageTable.listing, List.mem_cons, List.not_mem_nil,
      or_false] at hmem
    rcases hmem with rfl | rfl
    · obtain rfl := List.mem_singleton.1 hfield
      cases htype
      decide
    · obtain rfl := List.mem_singleton.1 hfield
      cases htype
      decide
  obtain ⟨hwith, hwithout⟩ := compiled_schemas_are_closed_schemas .default mutualSchema
  refine ⟨hwith.2 hclosed, fun hcompiled => ?_⟩
  -- The first message uses the second one, and nothing stands before it.
  obtain ⟨earlier, hlt, -⟩ :=
    (hwithout.1 hcompiled).2 0 _ rfl _ List.mem_cons_self "B" rfl
  exact Nat.not_lt_zero earlier hlt

end SchemaCompiler
