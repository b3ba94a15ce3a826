import SchemaCompiler.Proofs.Table
import SchemaCompiler.Schema
import SchemaCompiler.Token

/-!
# Derivation trees of the schema grammar

A tree for each rule of the grammar, with everything that the rule leaves open: the lines of the
reserved words, and the texts and lines of identifiers and numbers. `tokens` is what a tree spells,
`meaning` is what it means, and `Scoped` says that its types name messages declared before.

`SchemaTree.tokens_append_inj` says that the grammar is unambiguous: no token list starts with the
tokens of two different trees that the input ends after.
-/

namespace SchemaCompiler

/-- A reserved word on the given line. -/
def Token.reserved (word : String) (line : Int) : Token := ⟨word, .reserved, line⟩

/-- A word whose text the grammar leaves open, on some line. -/
structure Word where
  text : String
  line : Int
deriving DecidableEq, Repr

/-- A word as an identifier. -/
def Word.identifier (word : Word) : Token := ⟨word.text, .identifier, word.line⟩

/-- A word as a number. -/
def Word.number (word : Word) : Token := ⟨word.text, .number, word.line⟩

/-- The rule for types: the reserved word of a primitive type, or the name of a message. -/
inductive TypeTree where
  | primitive (type : Primitive) (line : Int)
  | message (name : Word)
deriving DecidableEq, Repr

namespace TypeTree

/-- The token that a type is spelled with. -/
def token : TypeTree → Token
  | primitive type line => .reserved type.word line
  | message name => name.identifier

/-- The type that is meant. -/
def meaning : TypeTree → FieldType
  | primitive type _ => .primitive type
  | message name => .message name.text

/-- A message type names one of the declared messages. -/
def Scoped (declared : List String) : TypeTree → Prop
  | primitive .. => True
  | message name => name.text ∈ declared

end TypeTree

/-- The rule for fields: the word `repeated` or not, the type, the name, the sign `=` and a number
or neither, and the sign that ends the field. Fixed words are given by their lines. -/
structure FieldTree where
  repeatedLine : Option Int
  type : TypeTree
  name : Word
  number : Option (Int × Word)
  endLine : Int
deriving DecidableEq, Repr

namespace FieldTree

/-- The tokens of a field up to its name. -/
def headTokens (tree : FieldTree) : List Token :=
  (tree.repeatedLine.map (Token.reserved "repeated")).toList ++
    [tree.type.token, tree.name.identifier]

/-- The tokens of the number of a field. -/
def numberTokens (tree : FieldTree) : List Token :=
  match tree.number with
  | none => []
  | some (line, number) => [.reserved "=" line, number.number]

/-- The tokens of a field. -/
def tokens (tree : FieldTree) : List Token :=
  tree.headTokens ++ tree.numberTokens ++ [.reserved ";" tree.endLine]

/-- The field that is meant. Its number means nothing. -/
def meaning (tree : FieldTree) : Field where
  identifier := tree.name.text
  type := tree.type.meaning
  repeated := tree.repeatedLine.isSome
  label := tree.type.meaning.nativeType

end FieldTree

/-- The rule for messages: the word `message`, the name, and the fields between braces. -/
structure MessageTree where
  keywordLine : Int
  name : Word
  openLine : Int
  fields : List FieldTree
  closeLine : Int
deriving DecidableEq, Repr

namespace MessageTree

/-- The tokens of a message. -/
def tokens (tree : MessageTree) : List Token :=
  .reserved "message" tree.keywordLine :: tree.name.identifier ::
    .reserved "\x7b" tree.openLine ::
      (tree.fields.flatMap FieldTree.tokens ++ [.reserved "\x7d" tree.closeLine])

/-- The message that is meant. -/
def meaning (tree : MessageTree) : Message where
  identifier := tree.name.text
  fields := tree.fields.map FieldTree.meaning

/-- The fields use declared messages only. -/
def Scoped (declared : List String) (tree : MessageTree) : Prop :=
  ∀ field ∈ tree.fields, field.type.Scoped declared

/-- Each message of a list uses only the declared messages and those before it in the list. -/
def ScopedAfter (declared : List String) : List MessageTree → Prop
  | [] => True
  | tree :: rest => tree.Scoped declared ∧ ScopedAfter (declared ++ [tree.name.text]) rest

end MessageTree

/-- The rule for schemas: a package clause and messages. -/
structure SchemaTree where
  packageLine : Int
  package : Word
  packageEndLine : Int
  messages : List MessageTree
deriving DecidableEq, Repr

namespace SchemaTree

/-- The tokens of the package clause. -/
def packageTokens (tree : SchemaTree) : List Token :=
  [.reserved "package" tree.packageLine, tree.package.identifier,
    .reserved ";" tree.packageEndLine]

/-- The tokens of a schema. -/
def tokens (tree : SchemaTree) : List Token :=
  tree.packageTokens ++ tree.messages.flatMap MessageTree.tokens

/-- The names of the messages in the order of their declarations. -/
def names (tree : SchemaTree) : List String :=
  tree.messages.map (·.name.text)

/-- The messages in the order of their declarations. -/
def declarations (tree : SchemaTree) : List Message :=
  tree.messages.map MessageTree.meaning

/-- The schema that is meant: the names in the order of their first declaration, each with its last
declaration. -/
def meaning (tree : SchemaTree) : Schema where
  package := tree.package.text
  messages := .listing (lastDeclarations tree.declarations)

/-- The conditions of the language that are not in the rules: a field uses only messages that were
declared before its own, and no name is declared twice unless redefinitions are allowed. -/
structure Admissible (allowRedefinition : Bool) (tree : SchemaTree) : Prop where
  inScope : MessageTree.ScopedAfter [] tree.messages
  distinct : allowRedefinition = false → tree.names.Nodup

end SchemaTree

/-- The input ends before these tokens: there are none, or the first one is an end of the input. -/
def EndsInput : List Token → Prop
  | [] => True
  | token :: _ => token.kind = .endOfInput

/-- The place of the first token that ends the input, or the length of a list without one. -/
def firstEnd (tokens : List Token) : Nat :=
  tokens.findIdx fun token => token.kind = .endOfInput

/-- The first end of the input comes after tokens that do not end it. -/
theorem firstEnd_append {read rest : List Token}
    (hread : ∀ token ∈ read, token.kind ≠ .endOfInput) (hrest : EndsInput rest) :
    firstEnd (read ++ rest) = read.length := by
  have hfirst : rest.findIdx (fun token => token.kind = .endOfInput) = 0 := by
    cases rest with
    | nil => rfl
    | cons token rest =>
        have hkind : token.kind = .endOfInput := hrest
        simp [List.findIdx_cons, hkind]
  have hlength : read.findIdx (fun token => token.kind = .endOfInput) = read.length :=
    List.findIdx_eq_length.2 fun token hmem => by simpa using hread token hmem
  rw [firstEnd, List.findIdx_append, hlength, if_neg (Nat.lt_irrefl _), hfirst, Nat.zero_add]

/-! ## Unambiguity -/

/-- No two primitive types have the same word. -/
theorem Primitive.word_inj {first second : Primitive} (h : first.word = second.word) :
    first = second := by
  revert h
  cases first <;> cases second <;> decide

/-- The list of primitive types is complete. -/
theorem Primitive.mem_all (type : Primitive) : type ∈ all := by
  cases type <;> decide

/-- A word is determined by the identifier that it is. -/
theorem Word.identifier_inj {first second : Word} (h : first.identifier = second.identifier) :
    first = second := by
  cases first
  cases second
  simpa [identifier] using h

/-- A word is determined by the number that it is. -/
theorem Word.number_inj {first second : Word} (h : first.number = second.number) :
    first = second := by
  cases first
  cases second
  simpa [number] using h

/-- A type is determined by its token. -/
theorem TypeTree.token_inj {first second : TypeTree} (h : first.token = second.token) :
    first = second := by
  cases first with
  | primitive type line =>
      cases second with
      | primitive other otherLine =>
          obtain ⟨hword, rfl⟩ : type.word = other.word ∧ line = otherLine := by
            simpa [token, Token.reserved] using h
          rw [Primitive.word_inj hword]
      | message name => simp [token, Token.reserved, Word.identifier] at h
  | message name =>
      cases second with
      | primitive type line => simp [token, Token.reserved, Word.identifier] at h
      | message other => rw [Word.identifier_inj h]

/-- A word that is no primitive type spells no type. -/
theorem TypeTree.token_ne_reserved (tree : TypeTree) {word : String} (line : Int)
    (h : word ∉ Primitive.all.map Primitive.word) : tree.token ≠ .reserved word line := by
  intro heq
  cases tree with
  | primitive type typeLine =>
      exact h (List.mem_map.2 ⟨type, type.mem_all, congrArg Token.content heq⟩)
  | message name =>
      have hkind : TokenKind.identifier = .reserved := congrArg Token.kind heq
      cases hkind

namespace FieldTree

/-- No field starts with a closing brace. -/
theorem tokens_append_ne_close (tree : FieldTree) (line : Int) (rest other : List Token) :
    tree.tokens ++ rest ≠ .reserved "\x7d" line :: other := by
  intro h
  obtain ⟨repeatedLine, type, name, number, endLine⟩ := tree
  cases repeatedLine with
  | none =>
      have hhead : type.token = .reserved "\x7d" line := by
        simpa [tokens, headTokens] using congrArg List.head? h
      exact type.token_ne_reserved line (by decide) hhead
  | some repeatedLine => simp [tokens, headTokens, Token.reserved] at h

/-- What follows the name of a field decides on its number. -/
theorem numberTokens_append_inj {first second : FieldTree} {rest other : List Token}
    (h : first.numberTokens ++ .reserved ";" first.endLine :: rest =
      second.numberTokens ++ .reserved ";" second.endLine :: other) :
    first.number = second.number ∧ first.endLine = second.endLine ∧ rest = other := by
  cases hfirst : first.number with
  | none =>
      cases hsecond : second.number with
      | none => simpa [numberTokens, hfirst, hsecond, Token.reserved] using h
      | some pair => simp [numberTokens, hfirst, hsecond, Token.reserved] at h
  | some pair =>
      cases hsecond : second.number with
      | none => simp [numberTokens, hfirst, hsecond, Token.reserved] at h
      | some otherPair =>
          simp only [numberTokens, hfirst, hsecond, List.cons_append, List.nil_append,
            List.cons.injEq, Token.reserved, Token.mk.injEq, true_and] at h
          obtain ⟨hline, hnumber, hend, hrest⟩ := h
          exact ⟨by rw [Prod.ext hline (Word.number_inj hnumber)], hend, hrest⟩

/-- What stands before a type decides on the word `repeated`, which spells no type. -/
theorem repeated_append_inj {first second : Option Int} {type otherType : TypeTree}
    {rest other : List Token}
    (h : (first.map (Token.reserved "repeated")).toList ++ type.token :: rest =
      (second.map (Token.reserved "repeated")).toList ++ otherType.token :: other) :
    first = second ∧ type = otherType ∧ rest = other := by
  have hrepeated (line : Int) (tree : TypeTree) : tree.token ≠ .reserved "repeated" line :=
    tree.token_ne_reserved line (by decide)
  cases first with
  | none =>
      cases second with
      | none =>
          obtain ⟨htype, hrest⟩ := List.cons.inj h
          exact ⟨rfl, TypeTree.token_inj htype, hrest⟩
      | some otherLine => exact absurd (List.cons.inj h).1 (hrepeated _ _)
  | some line =>
      cases second with
      | none => exact absurd (List.cons.inj h).1.symm (hrepeated _ _)
      | some otherLine =>
          obtain ⟨hword, htail⟩ := List.cons.inj h
          obtain ⟨htype, hrest⟩ := List.cons.inj htail
          obtain rfl : line = otherLine := congrArg Token.line hword
          exact ⟨rfl, TypeTree.token_inj htype, hrest⟩

/-- The tokens of a field determine it and where it ends. -/
theorem tokens_append_inj {first second : FieldTree} {rest other : List Token}
    (h : first.tokens ++ rest = second.tokens ++ other) : first = second ∧ rest = other := by
  obtain ⟨repeatedLine, type, name, number, endLine⟩ := first
  obtain ⟨otherRepeatedLine, otherType, otherName, otherNumber, otherEndLine⟩ := second
  simp only [tokens, headTokens, List.append_assoc, List.cons_append, List.nil_append] at h
  obtain ⟨rfl, rfl, htail⟩ := repeated_append_inj h
  obtain ⟨hname, hnumber⟩ := List.cons.inj htail
  obtain ⟨rfl, rfl, rfl⟩ := numberTokens_append_inj hnumber
  rw [Word.identifier_inj hname]
  exact ⟨rfl, rfl⟩

/-- The fields before a closing brace are determined by their tokens. -/
theorem flatMap_tokens_append_inj {first second : List FieldTree} {line otherLine : Int}
    {rest other : List Token}
    (h : first.flatMap tokens ++ .reserved "\x7d" line :: rest =
      second.flatMap tokens ++ .reserved "\x7d" otherLine :: other) :
    first = second ∧ line = otherLine ∧ rest = other := by
  induction first generalizing second with
  | nil =>
      cases second with
      | nil => simpa [Token.reserved] using h
      | cons field fields =>
          rw [List.flatMap_cons, List.append_assoc] at h
          exact absurd h.symm (tokens_append_ne_close _ _ _ _)
  | cons field fields ih =>
      cases second with
      | nil =>
          rw [List.flatMap_cons, List.append_assoc] at h
          exact absurd h (tokens_append_ne_close _ _ _ _)
      | cons otherField otherFields =>
          simp only [List.flatMap_cons, List.append_assoc] at h
          obtain ⟨rfl, htail⟩ := tokens_append_inj h
          obtain ⟨rfl, hline, hrest⟩ := ih htail
          exact ⟨rfl, hline, hrest⟩

end FieldTree

namespace MessageTree

/-- The tokens of a message determine it and where it ends. -/
theorem tokens_append_inj {first second : MessageTree} {rest other : List Token}
    (h : first.tokens ++ rest = second.tokens ++ other) : first = second ∧ rest = other := by
  obtain ⟨keywordLine, name, openLine, fields, closeLine⟩ := first
  obtain ⟨otherKeywordLine, otherName, otherOpenLine, otherFields, otherCloseLine⟩ := second
  simp only [tokens, List.cons_append, List.append_assoc, List.nil_append, List.cons.injEq] at h
  obtain ⟨hkeyword, hname, hopen, htail⟩ := h
  obtain ⟨rfl, rfl, rfl⟩ := FieldTree.flatMap_tokens_append_inj htail
  obtain rfl : keywordLine = otherKeywordLine := congrArg Token.line hkeyword
  obtain rfl : openLine = otherOpenLine := congrArg Token.line hopen
  rw [Word.identifier_inj hname]
  exact ⟨rfl, rfl⟩

/-- The input does not end before a message. -/
theorem not_endsInput_tokens_append (tree : MessageTree) (rest : List Token) :
    ¬ EndsInput (tree.tokens ++ rest) := by
  simp [EndsInput, tokens, Token.reserved]

/-- The messages before the end of the input are determined by their tokens. -/
theorem flatMap_tokens_append_inj {first second : List MessageTree} {rest other : List Token}
    (hrest : EndsInput rest) (hother : EndsInput other)
    (h : first.flatMap tokens ++ rest = second.flatMap tokens ++ other) :
    first = second ∧ rest = other := by
  induction first generalizing second with
  | nil =>
      cases second with
      | nil => exact ⟨rfl, h⟩
      | cons tree trees =>
          -- A message starts with a reserved word, and the input does not end before one.
          rw [List.flatMap_nil, List.nil_append, List.flatMap_cons, List.append_assoc] at h
          rw [h] at hrest
          exact absurd hrest (not_endsInput_tokens_append _ _)
  | cons tree trees ih =>
      cases second with
      | nil =>
          rw [List.flatMap_nil, List.nil_append, List.flatMap_cons, List.append_assoc] at h
          rw [← h] at hother
          exact absurd hother (not_endsInput_tokens_append _ _)
      | cons otherTree otherTrees =>
          simp only [List.flatMap_cons, List.append_assoc] at h
          obtain ⟨rfl, htail⟩ := tokens_append_inj h
          obtain ⟨rfl, hsame⟩ := ih htail
          exact ⟨rfl, hsame⟩

end MessageTree

/-- At most one schema is spelled by the tokens before the end of the input. -/
theorem SchemaTree.tokens_append_inj {first second : SchemaTree} {rest other : List Token}
    (hrest : EndsInput rest) (hother : EndsInput other)
    (h : first.tokens ++ rest = second.tokens ++ other) : first = second ∧ rest = other := by
  obtain ⟨packageLine, package, packageEndLine, messages⟩ := first
  obtain ⟨otherPackageLine, otherPackage, otherPackageEndLine, otherMessages⟩ := second
  simp only [tokens, packageTokens, List.cons_append, List.nil_append, List.cons.injEq] at h
  obtain ⟨hkeyword, hname, hend, htail⟩ := h
  obtain ⟨rfl, rfl⟩ := MessageTree.flatMap_tokens_append_inj hrest hother htail
  obtain rfl : packageLine = otherPackageLine := congrArg Token.line hkeyword
  obtain rfl : packageEndLine = otherPackageEndLine := congrArg Token.line hend
  rw [Word.identifier_inj hname]
  exact ⟨rfl, rfl⟩

end SchemaCompiler
