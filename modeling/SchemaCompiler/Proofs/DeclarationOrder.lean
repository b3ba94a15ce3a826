import Mathlib.Logic.Relation
import SchemaCompiler.Proofs.HeaderBlocks
import SchemaCompiler.Proofs.Parsing

/-!
# Definition before use

A schema defines its messages before their use if every message type names a message at an earlier
place (`Schema.DefinesBeforeUse`). Then no message contains itself, and a header completes every
type before the structure that has a member of it.

Without redefinitions every schema that is read has this property, as a message can only use those
declared before it. A redefinition takes the place of the first declaration but may use every name
declared since then, the redefined one included. So with redefinitions the property holds exactly
when `SchemaTree.UsesEarlier` holds of every name that is declared more than once.
-/

namespace SchemaCompiler

namespace Schema

/-- A message of the schema has a field of the type of another one. -/
def Uses (schema : Schema) (user used : String) : Prop :=
  ∃ message ∈ schema.messages.messages, message.identifier = user ∧
    ∃ field ∈ message.fields, field.type = .message used

/-- Every message type names a message at an earlier place than the message that uses it. -/
def DefinesBeforeUse (schema : Schema) : Prop :=
  ∀ (place : Nat) (message : Message), schema.messages.messages[place]? = some message →
    ∀ field ∈ message.fields, ∀ name, field.type = .message name →
      ∃ earlier < place, schema.messages.names[earlier]? = some name

/-- No message contains itself, directly or through others. -/
def Acyclic (schema : Schema) : Prop :=
  ∀ name, ¬ Relation.TransGen schema.Uses name name

variable {schema : Schema}

/-- The place of a message is the one of its name. -/
theorem idxOf_names (hnodup : schema.messages.names.Nodup) {place : Nat} {name : String}
    (h : schema.messages.names[place]? = some name) :
    schema.messages.names.idxOf name = place := by
  obtain ⟨hlength, rfl⟩ := List.getElem?_eq_some_iff.1 h
  exact hnodup.idxOf_getElem place hlength

/-- Messages are defined before their use exactly when each use leads to an earlier place. -/
theorem definesBeforeUse_iff (hnodup : schema.messages.names.Nodup) :
    schema.DefinesBeforeUse ↔
      ∀ user used, schema.Uses user used →
        schema.messages.names.idxOf used < schema.messages.names.idxOf user := by
  have hplace {place : Nat} {message : Message}
      (hmessage : schema.messages.messages[place]? = some message) :
      schema.messages.names.idxOf message.identifier = place :=
    idxOf_names hnodup (by rw [MessageTable.names, List.getElem?_map, hmessage]; rfl)
  constructor
  · rintro h user used ⟨message, hmem, rfl, field, hfield, htype⟩
    obtain ⟨place, hmessage⟩ := List.mem_iff_getElem?.1 hmem
    obtain ⟨earlier, hlt, hname⟩ := h place message hmessage field hfield used htype
    rwa [hplace hmessage, idxOf_names hnodup hname]
  · intro h place message hmessage field hfield name htype
    have hlt := h message.identifier name
      ⟨message, List.mem_of_getElem? hmessage, rfl, field, hfield, htype⟩
    rw [hplace hmessage] at hlt
    -- An earlier place than that of a message is a place of the table, so the name stands there.
    have hlength : schema.messages.names.idxOf name < schema.messages.names.length := by
      have hbound := (List.getElem?_eq_some_iff.1 hmessage).1
      have hnames : schema.messages.names.length = schema.messages.messages.length :=
        List.length_map _
      omega
    exact ⟨_, hlt, List.getElem?_eq_some_iff.2 ⟨hlength, List.getElem_idxOf hlength⟩⟩

/-- Uses through other messages lead to an earlier place too. -/
theorem DefinesBeforeUse.idxOf_lt_of_transGen (h : schema.DefinesBeforeUse)
    (hnodup : schema.messages.names.Nodup) {user used : String}
    (huses : Relation.TransGen schema.Uses user used) :
    schema.messages.names.idxOf used < schema.messages.names.idxOf user := by
  induction huses with
  | single huse => exact (definesBeforeUse_iff hnodup).1 h _ _ huse
  | tail _ huse ih =>
      have hlast := (definesBeforeUse_iff hnodup).1 h _ _ huse
      omega

/-- No message contains itself if all are defined before their use. -/
theorem DefinesBeforeUse.acyclic (h : schema.DefinesBeforeUse)
    (hnodup : schema.messages.names.Nodup) : schema.Acyclic := by
  intro name hcycle
  exact Nat.lt_irrefl _ (h.idxOf_lt_of_transGen hnodup hcycle)

end Schema

/-- In the header of the schema, every member of a message type or of a list of it stands in a
structure that the complete structure of the message stands before. -/
def Header.CompletesTypes (options : Options) (schema : Schema) : Prop :=
  ∀ message ∈ schema.messages.messages, ∀ field ∈ message.fields, ∀ name,
    field.type = .message name →
      field.declaredType = (if field.repeated then "std::vector<" ++ name ++ ">" else name) ∧
      (∃ before after : String,
        structText options.serializers message = before ++ memberText field ++ after) ∧
      ∃ definition ∈ schema.messages.messages, definition.identifier = name ∧
        EmitsBefore options schema definition message

/-- A header completes every type before the structures that use it if all messages are defined
before their use and each member is declared with its own type. -/
theorem Schema.DefinesBeforeUse.completesTypes {schema : Schema} (h : schema.DefinesBeforeUse)
    (hlabel : ∀ message ∈ schema.messages.messages, ∀ field ∈ message.fields,
      field.label = field.type.nativeType) (options : Options) :
    Header.CompletesTypes options schema := by
  intro message hmem field hfield name htype
  obtain ⟨place, hmessage⟩ := List.mem_iff_getElem?.1 hmem
  obtain ⟨earlier, hlt, hname⟩ := h place message hmessage field hfield name htype
  rw [MessageTable.names, List.getElem?_map] at hname
  obtain ⟨definition, hdefinition, hidentifier⟩ := Option.map_eq_some_iff.1 hname
  refine ⟨?_, Header.exists_memberText hfield _, definition, List.mem_of_getElem? hdefinition,
    hidentifier, Header.emitsBefore_of_lt hdefinition hmessage hlt options⟩
  rw [Field.declaredType, hlabel message hmem field hfield, htype]
  rfl

/-! ## The order of the declarations -/

/-- Names keep their order when the later occurrences of each are erased. -/
theorem idxOf_eraseDups_lt_iff {names : List String} {first second : String}
    (h : second ∈ names) :
    names.eraseDups.idxOf first < names.eraseDups.idxOf second ↔
      names.idxOf first < names.idxOf second := by
  induction names using List.reverseRecOn with
  | nil => simp at h
  | append_singleton names name ih =>
      rw [List.eraseDups_append]
      by_cases hsecond : second ∈ names
      · have hkept : second ∈ names.eraseDups := List.mem_eraseDups.2 hsecond
        rw [List.idxOf_append_of_mem hsecond, List.idxOf_append_of_mem hkept]
        by_cases hfirst : first ∈ names
        · rw [List.idxOf_append_of_mem hfirst,
            List.idxOf_append_of_mem (List.mem_eraseDups.2 hfirst)]
          exact ih hsecond
        · rw [List.idxOf_append_of_notMem hfirst,
            List.idxOf_append_of_notMem (mt List.mem_eraseDups.1 hfirst)]
          have hplace := List.idxOf_lt_length_of_mem hsecond
          have hkeptPlace := List.idxOf_lt_length_of_mem hkept
          omega
      · -- A name that does not occur before is the new one, and exactly those before it occur.
        obtain rfl : second = name := by simpa [hsecond] using h
        have hnew : ([second].removeAll names).eraseDups = [second] := by
          simp [List.cons_removeAll, hsecond, List.eraseDups_cons]
        have hkept := mt List.mem_eraseDups.1 hsecond
        rw [hnew, List.idxOf_append_of_notMem hsecond, List.idxOf_append_of_notMem hkept,
          List.idxOf_cons_self]
        by_cases hfirst : first ∈ names
        · have hfirstKept := List.mem_eraseDups.2 hfirst
          rw [List.idxOf_append_of_mem hfirst, List.idxOf_append_of_mem hfirstKept]
          have hplace := List.idxOf_lt_length_of_mem hfirst
          have hkeptPlace := List.idxOf_lt_length_of_mem hfirstKept
          omega
        · rw [List.idxOf_append_of_notMem hfirst,
            List.idxOf_append_of_notMem (mt List.mem_eraseDups.1 hfirst)]
          omega

/-- A type in scope that means a message means one of the declared ones. -/
theorem TypeTree.Scoped.mem_of_meaning {declared : List String} {tree : TypeTree} {name : String}
    (h : tree.Scoped declared) (hmeaning : tree.meaning = .message name) : name ∈ declared := by
  cases tree with
  | primitive type line => cases hmeaning
  | message word =>
      cases hmeaning
      exact h

namespace SchemaTree

/-- The names of the schema that is meant, in the order of their first declaration. -/
theorem names_meaning (tree : SchemaTree) :
    tree.meaning.messages.names = tree.names.eraseDups := by
  show (lastDeclarations tree.declarations).map (·.identifier) = tree.names.eraseDups
  rw [lastDeclarations_names, declarations, List.map_map]
  rfl

/-- What a name uses in the schema that is meant is what its last declaration uses. -/
theorem uses_meaning {tree : SchemaTree} {user used : String} :
    tree.meaning.Uses user used ↔
      ∃ message, lastDeclaration? tree.declarations user = some message ∧
        ∃ field ∈ message.fields, field.type = .message used := by
  constructor
  · rintro ⟨message, hmem, rfl, huse⟩
    exact ⟨message, mem_lastDeclarations.1 hmem, huse⟩
  · rintro ⟨message, hlast, huse⟩
    obtain rfl := (lastDeclaration?_eq_some hlast).2
    exact ⟨message, mem_lastDeclarations.2 hlast, rfl, huse⟩

/-- The last declaration of a name uses only names that are first declared before the name is. -/
def UsesEarlier (tree : SchemaTree) (user : String) : Prop :=
  ∀ message, lastDeclaration? tree.declarations user = some message →
    ∀ field ∈ message.fields, ∀ used, field.type = .message used →
      tree.names.idxOf used < tree.names.idxOf user

/-- A name uses only earlier names exactly when it does so in the schema that is meant. -/
theorem usesEarlier_iff {tree : SchemaTree} {user : String} :
    tree.UsesEarlier user ↔
      ∀ used, tree.meaning.Uses user used → tree.names.idxOf used < tree.names.idxOf user := by
  constructor
  · intro h used huses
    obtain ⟨message, hlast, field, hfield, htype⟩ := uses_meaning.1 huses
    exact h message hlast field hfield used htype
  · intro h message hlast field hfield used htype
    exact h used (uses_meaning.2 ⟨message, hlast, field, hfield, htype⟩)

/-- The schema that is meant defines its messages before their use exactly when every name uses
only names that are first declared before it. -/
theorem definesBeforeUse_meaning_iff (tree : SchemaTree) :
    tree.meaning.DefinesBeforeUse ↔ ∀ user, tree.UsesEarlier user := by
  rw [Schema.definesBeforeUse_iff tree.indexed_meaning.names_nodup, names_meaning]
  refine forall_congr' fun user => ?_
  rw [usesEarlier_iff]
  refine forall₂_congr fun used huses => idxOf_eraseDups_lt_iff ?_
  obtain ⟨message, hmem, rfl, -⟩ := huses
  exact mem_names_meaning.1 (List.mem_map_of_mem hmem)

/-- Every member of the schema that is meant is declared with its own type. -/
theorem label_meaning (tree : SchemaTree) :
    ∀ message ∈ tree.meaning.messages.messages, ∀ field ∈ message.fields,
      field.label = field.type.nativeType := by
  intro message hmem field hfield
  have hdeclared := (lastDeclaration?_eq_some (mem_lastDeclarations.1 hmem)).1
  obtain ⟨messageTree, -, rfl⟩ := List.mem_map.1 hdeclared
  obtain ⟨fieldTree, -, rfl⟩ := List.mem_map.1 hfield
  rfl

/-- A message of an admissible schema uses only messages before it. -/
theorem Admissible.scoped_of_append {allowRedefinition : Bool} {tree : SchemaTree}
    (h : tree.Admissible allowRedefinition) {before after : List MessageTree}
    {message : MessageTree} (hmessages : tree.messages = before ++ message :: after) :
    message.Scoped (before.map (·.name.text)) := by
  have hscope := h.inScope
  rw [hmessages, MessageTree.scopedAfter_append] at hscope
  exact hscope.2.1

/-- What a name uses in the schema that is meant is declared before a declaration of the name. -/
theorem Admissible.used_before {allowRedefinition : Bool} {tree : SchemaTree}
    (h : tree.Admissible allowRedefinition) {user used : String}
    (huses : tree.meaning.Uses user used) :
    ∃ before after : List String, tree.names = before ++ user :: after ∧ used ∈ before := by
  obtain ⟨message, hlast, field, hfield, htype⟩ := uses_meaning.1 huses
  obtain ⟨hdeclared, rfl⟩ := lastDeclaration?_eq_some hlast
  obtain ⟨messageTree, hmem, rfl⟩ := List.mem_map.1 hdeclared
  obtain ⟨fieldTree, hfieldTree, rfl⟩ := List.mem_map.1 hfield
  obtain ⟨before, after, hmessages⟩ := List.append_of_mem hmem
  refine ⟨before.map (·.name.text), after.map (·.name.text), ?_, ?_⟩
  · rw [names, hmessages, List.map_append, List.map_cons]
    rfl
  · exact (h.scoped_of_append hmessages fieldTree hfieldTree).mem_of_meaning htype

/-- A name that is declared only once uses only names that are declared before it. -/
theorem Admissible.usesEarlier {allowRedefinition : Bool} {tree : SchemaTree}
    (h : tree.Admissible allowRedefinition) {user : String} (honce : tree.names.count user ≤ 1) :
    tree.UsesEarlier user := by
  refine usesEarlier_iff.2 fun used huses => ?_
  obtain ⟨before, after, hnames, hused⟩ := h.used_before huses
  -- A declaration before this one would be a second one of the name.
  have hfirst : user ∉ before := by
    intro hearlier
    have hcount := List.count_pos_iff.2 hearlier
    rw [hnames, List.count_append, List.count_cons_self] at honce
    omega
  rw [hnames, List.idxOf_append_of_mem hused, List.idxOf_append_of_notMem hfirst]
  have hplace := List.idxOf_lt_length_of_mem hused
  omega

/-- In an admissible schema only the redefinitions decide whether messages are defined before their
use, and with this all that follows from it. -/
theorem Admissible.definesBeforeUse_iff {allowRedefinition : Bool} {tree : SchemaTree}
    (h : tree.Admissible allowRedefinition) :
    (tree.meaning.DefinesBeforeUse ∧ tree.meaning.Acyclic ∧
      ∀ options, Header.CompletesTypes options tree.meaning) ↔
      ∀ user, 1 < tree.names.count user → tree.UsesEarlier user := by
  constructor
  · intro hdefines user _
    exact tree.definesBeforeUse_meaning_iff.1 hdefines.1 user
  · intro hredefined
    have hdefines : tree.meaning.DefinesBeforeUse := by
      refine tree.definesBeforeUse_meaning_iff.2 fun user => ?_
      by_cases honce : tree.names.count user ≤ 1
      · exact h.usesEarlier honce
      · exact hredefined user (Nat.lt_of_not_le honce)
    exact ⟨hdefines, hdefines.acyclic tree.indexed_meaning.names_nodup,
      hdefines.completesTypes tree.label_meaning⟩

end SchemaTree

/-! ## The main results -/

/-- Without redefinitions the messages of a schema that is read have different names and are defined
before their use. So no message contains itself, and every header completes each message type before
the structures that have a member of it. -/
theorem parsed_schema_defines_before_use (options : Options) (tokens : List Token) (schema : Schema)
    (hoptions : options.allowRedefinition = false)
    (hparsed : (Schema.ofTokens options.allowRedefinition tokens).result = .ok schema) :
    schema.messages.names.Nodup ∧ schema.DefinesBeforeUse ∧ schema.Acyclic ∧
      ∀ emission, Header.CompletesTypes emission schema := by
  obtain ⟨tree, rest, rfl, hrest, hmessages, hadmissible, rfl⟩ := Schema.ofTokens_eq_ok.1 hparsed
  refine ⟨tree.indexed_meaning.names_nodup,
    hadmissible.definesBeforeUse_iff.2 fun user htwice => ?_⟩
  have honce := List.nodup_iff_count_le_one.1 (hadmissible.distinct hoptions) user
  omega

/-- Two messages of which the second has a list of the first. -/
def nestingTree : SchemaTree where
  packageLine := 1
  package := ⟨"p", 1⟩
  packageEndLine := 1
  messages :=
    [⟨2, ⟨"A", 2⟩, 2, [⟨none, .primitive .bool 2, ⟨"x", 2⟩, none, 2⟩], 2⟩,
     ⟨3, ⟨"B", 3⟩, 3, [⟨some 3, .message ⟨"A", 3⟩, ⟨"items", 3⟩, some (3, ⟨"1", 3⟩), 3⟩], 3⟩]

/-- A list of messages as a field is read, and its type is defined before its use. -/
theorem nestingTree_defines_before_use :
    (Schema.ofTokens Options.default.allowRedefinition nestingTree.tokens).result =
      .ok nestingTree.meaning ∧
    nestingTree.meaning.Uses "B" "A" ∧
    nestingTree.meaning.messages.names.Nodup ∧ nestingTree.meaning.DefinesBeforeUse ∧
    nestingTree.meaning.Acyclic ∧
      ∀ emission, Header.CompletesTypes emission nestingTree.meaning := by
  have hadmissible : nestingTree.Admissible false := by
    refine ⟨?_, fun _ => by decide⟩
    simp [nestingTree, MessageTree.ScopedAfter, MessageTree.Scoped, TypeTree.Scoped]
  have hparsed : (Schema.ofTokens false nestingTree.tokens).result = .ok nestingTree.meaning :=
    Schema.ofTokens_eq_ok.2
      ⟨nestingTree, [], by simp, trivial, by simp [nestingTree], hadmissible, rfl⟩
  have huses : nestingTree.meaning.Uses "B" "A" :=
    SchemaTree.uses_meaning.2 ⟨_, rfl, _, List.mem_cons_self, rfl⟩
  exact ⟨hparsed, huses,
    parsed_schema_defines_before_use .default nestingTree.tokens nestingTree.meaning rfl hparsed⟩

/-- With redefinitions the messages of a schema that is read have different names, and every message
type names one of them. They are defined before their use, with all that follows from it, exactly
when the last declaration of every name that is declared more than once uses only names that are
first declared before that name is. -/
theorem redefined_schema_defines_before_use_iff (tokens : List Token) (schema : Schema)
    (hparsed : (Schema.ofTokens true tokens).result = .ok schema) :
    ∃ (tree : SchemaTree) (rest : List Token), tokens = tree.tokens ++ rest ∧ EndsInput rest ∧
      schema = tree.meaning ∧ schema.messages.names.Nodup ∧
      (∀ user used, schema.Uses user used → used ∈ schema.messages.names) ∧
      ((schema.DefinesBeforeUse ∧ schema.Acyclic ∧
        ∀ emission, Header.CompletesTypes emission schema) ↔
        ∀ user, 1 < tree.names.count user → tree.UsesEarlier user) := by
  obtain ⟨tree, rest, rfl, hrest, hmessages, hadmissible, rfl⟩ := Schema.ofTokens_eq_ok.1 hparsed
  refine ⟨tree, rest, rfl, hrest, rfl, tree.indexed_meaning.names_nodup, ?_,
    hadmissible.definesBeforeUse_iff⟩
  intro user used huses
  obtain ⟨before, after, hnames, hused⟩ := hadmissible.used_before huses
  rw [SchemaTree.mem_names_meaning, hnames]
  exact List.mem_append_left _ hused

/-- A message that is declared again after another one that uses it. -/
def redeclaringTree : SchemaTree where
  packageLine := 1
  package := ⟨"p", 1⟩
  packageEndLine := 1
  messages :=
    [⟨2, ⟨"A", 2⟩, 2, [⟨none, .primitive .bool 2, ⟨"x", 2⟩, none, 2⟩], 2⟩,
     ⟨3, ⟨"B", 3⟩, 3, [⟨none, .message ⟨"A", 3⟩, ⟨"a", 3⟩, none, 3⟩], 3⟩,
     ⟨4, ⟨"A", 4⟩, 4, [⟨none, .primitive .int32 4, ⟨"y", 4⟩, none, 4⟩], 4⟩]

/-- A redefinition that uses no message leaves the definitions before their use. -/
theorem redeclaringTree_defines_before_use :
    (Schema.ofTokens true redeclaringTree.tokens).result = .ok redeclaringTree.meaning ∧
    redeclaringTree.meaning.DefinesBeforeUse := by
  have hparsed : (Schema.ofTokens true redeclaringTree.tokens).result =
      .ok redeclaringTree.meaning := by
    refine Schema.ofTokens_eq_ok.2
      ⟨redeclaringTree, [], by simp, trivial, by simp [redeclaringTree], ⟨?_, by simp⟩, rfl⟩
    simp [redeclaringTree, MessageTree.ScopedAfter, MessageTree.Scoped, TypeTree.Scoped]
  obtain ⟨tree, rest, htokens, hrest, -, -, -, hdefines⟩ :=
    redefined_schema_defines_before_use_iff redeclaringTree.tokens redeclaringTree.meaning hparsed
  obtain ⟨rfl, rfl⟩ : redeclaringTree = tree ∧ [] = rest :=
    SchemaTree.tokens_append_inj trivial hrest (by rwa [List.append_nil])
  refine ⟨hparsed, (hdefines.2 fun user htwice message hlast field hfield used htype => ?_).1⟩
  -- Only `A` is declared twice, and its last declaration has no field of a message type.
  obtain rfl : "A" = user := by
    by_contra hother
    simp [redeclaringTree, SchemaTree.names, List.count_cons, hother] at htwice
    split at htwice <;> omega
  obtain rfl := Option.some.inj hlast
  obtain rfl := List.mem_singleton.1 hfield
  cases htype

/-- A message that is declared again with a field of its own type. -/
def selfNestingTree : SchemaTree where
  packageLine := 1
  package := ⟨"p", 1⟩
  packageEndLine := 1
  messages :=
    [⟨1, ⟨"A", 1⟩, 1, [], 1⟩,
     ⟨1, ⟨"A", 1⟩, 1, [⟨none, .message ⟨"A", 1⟩, ⟨"a", 1⟩, none, 1⟩], 1⟩]

/-- A redefinition can make a message contain itself: the parser reads the schema, and the type is
not defined before its use. -/
theorem selfNestingTree_not_defines_before_use :
    (Schema.ofTokens true selfNestingTree.tokens).result = .ok selfNestingTree.meaning ∧
    ¬ selfNestingTree.meaning.DefinesBeforeUse ∧ ¬ selfNestingTree.meaning.Acyclic := by
  have huses : selfNestingTree.meaning.Uses "A" "A" :=
    SchemaTree.uses_meaning.2 ⟨_, rfl, _, List.mem_cons_self, rfl⟩
  refine ⟨Schema.ofTokens_eq_ok.2
    ⟨selfNestingTree, [], by simp, trivial, by simp [selfNestingTree], ⟨?_, by simp⟩, rfl⟩, ?_, ?_⟩
  · simp [selfNestingTree, MessageTree.ScopedAfter, MessageTree.Scoped, TypeTree.Scoped]
  · intro hdefines
    have hlt := (Schema.definesBeforeUse_iff selfNestingTree.indexed_meaning.names_nodup).1
      hdefines _ _ huses
    omega
  · exact fun hacyclic => hacyclic "A" (.single huses)

end SchemaCompiler
