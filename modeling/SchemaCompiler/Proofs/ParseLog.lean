import SchemaCompiler.Proofs.ErrorClass
import SchemaCompiler.Proofs.Lockstep

/-!
# The report of a parser run

A run reports every message declaration that it completes, and right after it that the declaration
replaces an earlier one of the same name. Read `parse_log_follows_declarations` last: whether the
run succeeds or fails, its events are the reports on the declarations before the place where it
stops (`StopsAt`, `CompletedIn`), and nothing else.

Only a closing brace is reported on (`State.Step.events_eq_nil`), so the tokens after the last
complete declaration add nothing. The declarations themselves are followed one by one
(`State.Steps.events_eq_reports`).
-/

namespace SchemaCompiler

/-! ## Reports on declarations -/

/-- The name and the number of fields in the report on a declaration. -/
def Event.parsed? : Event → Option (String × Nat)
  | parsed name fields => some (name, fields)
  | _ => none

/-- The name and its line in the warning that a declaration replaces an earlier one. -/
def Event.redefined? : Event → Option (String × Int)
  | redefined name line => some (name, line)
  | _ => none

namespace MessageTree

/-- The report on a declaration after those of the given names: its name and the number of its
fields, and a warning if the name is one of them. -/
def report (declared : List String) (tree : MessageTree) : List Event :=
  .parsed tree.name.text tree.fields.length ::
    if tree.name.text ∈ declared then [.redefined tree.name.text tree.name.line] else []

/-- The reports on declarations in their order, after those of the given names. -/
def reports (declared : List String) : List MessageTree → List Event
  | [] => []
  | tree :: rest => tree.report declared ++ reports (declared ++ [tree.name.text]) rest

variable {declared : List String}

/-- The report on a further declaration follows the others. -/
theorem reports_snoc (trees : List MessageTree) (tree : MessageTree) :
    reports declared (trees ++ [tree]) =
      reports declared trees ++ tree.report (declared ++ trees.map (·.name.text)) := by
  induction trees generalizing declared with
  | nil => simp [reports]
  | cons first rest ih => simp [reports, ih]

/-- Every declaration is reported on once, with its name and the number of its fields. -/
theorem filterMap_parsed?_reports (trees : List MessageTree) :
    (reports declared trees).filterMap Event.parsed? =
      trees.map fun tree => (tree.name.text, tree.fields.length) := by
  induction trees generalizing declared with
  | nil => rfl
  | cons tree rest ih =>
      have hreport : (tree.report declared).filterMap Event.parsed? =
          [(tree.name.text, tree.fields.length)] := by
        unfold report
        split <;> rfl
      rw [reports, List.filterMap_append, hreport, ih]
      rfl

/-- A declaration is warned about once, if its name was declared before. -/
theorem filterMap_redefined?_report (tree : MessageTree) :
    (tree.report declared).filterMap Event.redefined? =
      if tree.name.text ∈ declared then [(tree.name.text, tree.name.line)] else [] := by
  unfold report
  split <;> rfl

/-- Declarations of different names are not warned about. -/
theorem filterMap_redefined?_reports_of_nodup {trees : List MessageTree}
    (h : (declared ++ trees.map (·.name.text)).Nodup) :
    (reports declared trees).filterMap Event.redefined? = [] := by
  induction trees generalizing declared with
  | nil => rfl
  | cons tree rest ih =>
      have hfresh : tree.name.text ∉ declared := fun hmem =>
        List.disjoint_of_nodup_append h hmem (by simp)
      rw [reports, List.filterMap_append, filterMap_redefined?_report, if_neg hfresh,
        ih (by simpa using h), List.append_nil]

end MessageTree

/-- The declarations of a schema are as many as its messages and the warnings together. -/
theorem SchemaTree.length_messages (tree : SchemaTree) :
    tree.messages.length = tree.meaning.messages.size +
      ((MessageTree.reports [] tree.messages).filterMap Event.redefined?).length := by
  induction tree using SchemaTree.snoc_induction with
  | nil tree hempty =>
      rw [meaning_of_messages_eq_nil hempty, hempty]
      rfl
  | snoc tree message ih =>
      have hsize : (tree.snoc message).meaning.messages.size =
          if message.name.text ∈ tree.names then tree.meaning.messages.size
          else tree.meaning.messages.size + 1 := by
        have hname : message.meaning.identifier ∈ tree.meaning.messages.names ↔
            message.name.text ∈ tree.names := mem_names_meaning
        rw [meaning_snoc, MessageTable.size, tree.indexed_meaning.messages_insert]
        simp only [hname]
        split <;> simp [MessageTable.size]
      rw [hsize, snoc, MessageTree.reports_snoc, List.filterMap_append,
        MessageTree.filterMap_redefined?_report, List.nil_append, List.length_append,
        List.length_append, ih]
      show _ = _ + (_ + (if message.name.text ∈ tree.names then _ else _ : List _).length)
      split <;> simp only [List.length_cons, List.length_nil] <;> omega

/-! ## Complete declarations -/

/-- The declarations that are complete in the tokens: there are none while the package clause is
open, and after it they are those of a tree to which no further one can be added. -/
def CompletedIn (read : List Token) (messages : List MessageTree) : Prop :=
  (PackageOpen read ∧ messages = []) ∨
    ∃ tree : SchemaTree, tree.messages = messages ∧ tree.tokens <+: read ∧
      ∀ message, ¬ (tree.snoc message).tokens <+: read

/-- Of two lists of messages that the same tokens start with, one starts with the other. -/
theorem MessageTree.prefix_or_prefix_of_tokens {first second : List MessageTree}
    {rest other : List Token}
    (h : first.flatMap tokens ++ rest = second.flatMap tokens ++ other) :
    first <+: second ∨ second <+: first := by
  induction first generalizing second with
  | nil => exact .inl second.nil_prefix
  | cons tree trees ih =>
      cases second with
      | nil => exact .inr (List.nil_prefix)
      | cons otherTree otherTrees =>
          simp only [List.flatMap_cons, List.append_assoc] at h
          obtain ⟨rfl, htail⟩ := tokens_append_inj h
          exact (ih htail).imp (List.prefix_cons_inj tree).2 (List.prefix_cons_inj tree).2

/-- The tokens of a tree with more messages start with those of the tree and the next message. -/
theorem SchemaTree.snoc_prefix_of_messages {tree other : SchemaTree} {message : MessageTree}
    {more : List MessageTree} (hpackage : tree.packageTokens = other.packageTokens)
    (hmessages : other.messages = tree.messages ++ message :: more) :
    (tree.snoc message).tokens <+: other.tokens := by
  refine ⟨more.flatMap MessageTree.tokens, ?_⟩
  rw [tokens_snoc, tokens, tokens, hpackage, hmessages]
  simp

/-- The complete declarations are determined by the tokens. -/
theorem CompletedIn.unique {read : List Token} {messages others : List MessageTree}
    (h : CompletedIn read messages) (hother : CompletedIn read others) : messages = others := by
  have hclause (tree : SchemaTree) (htree : tree.tokens <+: read) : ¬ PackageOpen read :=
    fun hopen => hopen tree ((List.prefix_append _ _).trans htree)
  rcases h with ⟨hopen, rfl⟩ | ⟨tree, rfl, htree, hlast⟩
  · rcases hother with ⟨-, rfl⟩ | ⟨other, -, hother, -⟩
    · rfl
    · exact absurd hopen (hclause other hother)
  · rcases hother with ⟨hopen, -⟩ | ⟨other, rfl, hother, hotherLast⟩
    · exact absurd hopen (hclause tree htree)
    · obtain ⟨rest, hrest⟩ := htree
      obtain ⟨more, hmore⟩ := hother
      have htokens : tree.packageTokens ++ (tree.messages.flatMap MessageTree.tokens ++ rest) =
          other.packageTokens ++ (other.messages.flatMap MessageTree.tokens ++ more) := by
        rw [← List.append_assoc, ← List.append_assoc]
        exact hrest.trans hmore.symm
      -- The package clauses are alike, so the messages can be compared.
      obtain ⟨hpackage, hmessages⟩ := List.append_inj htokens rfl
      rcases MessageTree.prefix_or_prefix_of_tokens hmessages with ⟨next, hnext⟩ | ⟨next, hnext⟩
      · cases next with
        | nil => rwa [List.append_nil] at hnext
        | cons message next =>
            have hstart := SchemaTree.snoc_prefix_of_messages hpackage hnext.symm
            exact absurd (hstart.trans ⟨more, hmore⟩) (hlast message)
      · cases next with
        | nil => exact (List.append_nil _ ▸ hnext).symm
        | cons message next =>
            have hstart := SchemaTree.snoc_prefix_of_messages hpackage.symm hnext.symm
            exact absurd (hstart.trans ⟨rest, hrest⟩) (hotherLast message)

/-- Tokens without a closing brace complete no further declaration. -/
theorem SchemaTree.completedIn_append (tree : SchemaTree) {part : List Token}
    (hpart : ∀ token ∈ part, token.isReserved "\x7d" = false) :
    CompletedIn (tree.tokens ++ part) tree.messages := by
  refine .inr ⟨tree, rfl, List.prefix_append _ _, fun message hstart => ?_⟩
  rw [tokens_snoc, List.prefix_append_right_inj] at hstart
  have hclose : Token.reserved "\x7d" message.closeLine ∈ part :=
    hstart.subset (by simp [MessageTree.tokens])
  simpa [Token.isReserved_reserved] using hpart _ hclose

/-- No token of a field is a closing brace. -/
theorem FieldTree.isReserved_close {tree : FieldTree} {token : Token} (h : token ∈ tree.tokens) :
    token.isReserved "\x7d" = false := by
  have htype : tree.type.token.isReserved "\x7d" = false := Bool.eq_false_iff.2 fun hclose =>
    tree.type.token_ne_reserved _ (by decide) (Token.eq_reserved_of_isReserved hclose)
  rw [tokens, List.mem_append, List.mem_append, headTokens, List.mem_append] at h
  rcases h with ((hrepeated | hname) | hnumber) | hend
  · obtain ⟨line, -, rfl⟩ : ∃ line, tree.repeatedLine = some line ∧
        Token.reserved "repeated" line = token := by simpa using hrepeated
    rfl
  · rcases List.mem_pair.1 hname with rfl | rfl
    · exact htype
    · rfl
  · unfold numberTokens at hnumber
    split at hnumber
    · cases hnumber
    · rcases List.mem_pair.1 hnumber with rfl | rfl <;> rfl
  · obtain rfl := List.mem_singleton.1 hend
    rfl

/-- No token of a part of a field is a closing brace. -/
theorem FieldPlace.Spells.isReserved_close {declared : List String} {place : FieldPlace}
    {part : List Token} (h : place.Spells declared part) :
    ∀ token ∈ part, token.isReserved "\x7d" = false := by
  intro token hmem
  have hproduction : place.production = .type ∨ place.production = .field := by
    cases place <;> simp [production]
  rcases hproduction with htype | hfield
  · rcases h.eq_of_type htype with rfl | ⟨line, rfl⟩
    · cases hmem
    · obtain rfl := List.mem_singleton.1 hmem
      rfl
  · obtain ⟨field, rest, due, -, htokens, rfl⟩ := h.exists_field hfield
    exact FieldTree.isReserved_close (htokens ▸ List.mem_append_left due hmem)

namespace State

variable {allowRedefinition : Bool}

/-! ## The events of a run -/

/-- Only a closing brace is reported on. -/
theorem Step.events_eq_nil {state next : State} {token : Token} {events : List Event}
    (h : Step allowRedefinition state token next events)
    (htoken : token.isReserved "\x7d" = false) : events = [] := by
  cases h with
  | messageClose => simp [Token.isReserved_reserved] at htoken
  | _ => rfl

/-- Tokens without a closing brace are not reported on. -/
theorem Steps.events_eq_nil {state next : State} {read : List Token} {events : List Event}
    (h : Steps allowRedefinition state read next events)
    (hread : ∀ token ∈ read, token.isReserved "\x7d" = false) : events = [] := by
  induction h with
  | refl state => rfl
  | cons hstep _ ih =>
      obtain ⟨htoken, hrest⟩ := List.forall_mem_cons.1 hread
      rw [hstep.events_eq_nil htoken, ih hrest, List.append_nil]

/-- Transitions over a token list stop between its parts, and report on both. -/
theorem Steps.split {state last : State} {read more : List Token} {events : List Event}
    (h : Steps allowRedefinition state (read ++ more) last events) :
    ∃ next before after, Steps allowRedefinition state read next before ∧
      Steps allowRedefinition next more last after ∧ events = before ++ after := by
  induction read generalizing state events with
  | nil => exact ⟨state, [], events, .refl state, h, rfl⟩
  | cons token read ih =>
      cases h with
      | cons hstep hrest =>
          obtain ⟨next, before, after, hread, hmore, rfl⟩ := ih hrest
          exact ⟨next, _, after, .cons hstep hread, hmore, (List.append_assoc _ _ _).symm⟩

/-- Transitions over the same tokens report the same. -/
theorem Steps.events_unique {state next other : State} {read : List Token}
    {events further : List Event} (h : Steps allowRedefinition state read next events)
    (hother : Steps allowRedefinition state read other further) : events = further := by
  induction h generalizing further with
  | refl state =>
      cases hother
      rfl
  | cons hstep _ ih =>
      cases hother with
      | cons hfirst hrest =>
          have hsame := hstep.advance_eq.symm.trans hfirst.advance_eq
          cases hsame
          rw [ih hrest]

/-- Closing a message after those of a tree is reported as its declaration. -/
theorem closeMessage_events (tree : SchemaTree) (message : MessageTree) :
    (closeMessage tree.meaning message.name.identifier message.meaning.fields).2 =
      message.report tree.names := by
  have hearlier : (tree.meaning.messages.put message.meaning).1.isSome = true ↔
      message.name.text ∈ tree.names := by
    rw [MessageTable.put_fst, tree.indexed_meaning.isSome_get?,
      tree.indexed_meaning.contains_iff]
    exact SchemaTree.mem_names_meaning
  show Event.parsed message.name.text message.meaning.fields.length ::
    (if (tree.meaning.messages.put message.meaning).1.isSome then _ else []) = _
  rw [MessageTree.report, MessageTree.meaning, List.length_map]
  simp only [← hearlier, Word.identifier]
  rfl

/-- Transitions over the tokens of a package clause and messages report on the messages. -/
theorem Steps.events_eq_reports {tree : SchemaTree} {last : State} {events : List Event}
    (h : Steps allowRedefinition .start tree.tokens last events) :
    events = MessageTree.reports [] tree.messages := by
  induction tree using SchemaTree.snoc_induction generalizing last events with
  | nil tree hempty =>
      rw [hempty]
      refine h.events_eq_nil fun token hmem => ?_
      simp only [SchemaTree.tokens, SchemaTree.packageTokens, hempty, List.flatMap_nil,
        List.append_nil, List.mem_cons, List.not_mem_nil, or_false] at hmem
      rcases hmem with rfl | rfl | rfl <;> rfl
  | snoc tree message ih =>
      rw [SchemaTree.tokens_snoc] at h
      obtain ⟨next, before, after, hbefore, hmessage, rfl⟩ := h.split
      obtain rfl := hbefore.eq_afterTree
      -- The message was read, so its name may be declared and its types are in scope.
      have hopen := hmessage
      rw [MessageTree.tokens] at hopen
      obtain ⟨hfresh, hscoped, -⟩ := hopen.after_openMessage
      have hclose := steps_message message (step_message_afterTree tree message.keywordLine)
        tree.indexed_meaning
        (fun field hfield => (hscoped field hfield).mono
          fun name hname => SchemaTree.mem_names_meaning.2 hname)
        (fun hallow hmem => hfresh hallow (SchemaTree.mem_names_meaning.1 hmem))
      rw [ih hbefore, hmessage.events_unique hclose, closeMessage_events, SchemaTree.snoc,
        MessageTree.reports_snoc]
      rfl

/-- Transitions over a package clause and messages, and tokens without a closing brace after them,
report on the messages. -/
theorem Steps.reports_of_append {tree : SchemaTree} {part : List Token} {last : State}
    {events : List Event} (h : Steps allowRedefinition .start (tree.tokens ++ part) last events)
    (hpart : ∀ token ∈ part, token.isReserved "\x7d" = false) :
    events = MessageTree.reports [] tree.messages := by
  obtain ⟨next, before, after, hbefore, hafter, rfl⟩ := h.split
  rw [hbefore.events_eq_reports, hafter.events_eq_nil hpart, List.append_nil]

/-- What has been read is a part of the package clause, or an admissible schema and a part of
another message without its closing brace. -/
theorem Spells.exists_openPart {read : List Token} {state : State}
    (h : Spells allowRedefinition state read) :
    (state.production = .package ∧ ∀ token ∈ read, token.isReserved "\x7d" = false) ∨
      ∃ (tree : SchemaTree) (part : List Token), read = tree.tokens ++ part ∧
        tree.Admissible allowRedefinition ∧ ∀ token ∈ part, token.isReserved "\x7d" = false := by
  have hname (name : Word) : name.identifier.isReserved "\x7d" = false := rfl
  cases h with
  | start => exact .inl ⟨rfl, by simp⟩
  | packageName line => exact .inl ⟨rfl, by simp [Token.isReserved_reserved]⟩
  | packageEnd line name => exact .inl ⟨rfl, by simp [Token.isReserved_reserved, hname]⟩
  | firstMessage tree hempty =>
      refine .inr ⟨tree, [], (List.append_nil _).symm, ⟨?_, fun _ => ?_⟩, by simp⟩
      · rw [hempty]
        trivial
      · simp [SchemaTree.names, hempty]
  | nextMessage tree _ hadmissible =>
      exact .inr ⟨tree, [], (List.append_nil _).symm, hadmissible, by simp⟩
  | messageName tree line hadmissible =>
      exact .inr ⟨tree, _, rfl, hadmissible, by simp [Token.isReserved_reserved]⟩
  | messageOpen tree line name hadmissible =>
      exact .inr ⟨tree, _, rfl, hadmissible, by simp [Token.isReserved_reserved, hname]⟩
  | messageBody tree line name openLine fields place part hadmissible _ _ hplace =>
      refine .inr ⟨tree, _, List.append_assoc _ _ _, hadmissible, fun token hmem => ?_⟩
      simp only [List.cons_append, List.nil_append, List.mem_cons, List.mem_append,
        List.mem_flatMap] at hmem
      rcases hmem with rfl | rfl | rfl | ⟨field, -, hfield⟩ | hlast
      · rfl
      · rfl
      · rfl
      · exact FieldTree.isReserved_close hfield
      · exact hplace.isReserved_close token hlast

/-- Whatever has been read, the events so far are the reports on the complete declarations, and
without redefinitions these have different names. -/
theorem Steps.exists_completed {read : List Token} {state : State} {events : List Event}
    (h : Steps allowRedefinition .start read state events) :
    ∃ messages, CompletedIn read messages ∧ events = MessageTree.reports [] messages ∧
      (allowRedefinition = false → (messages.map (·.name.text)).Nodup) := by
  rcases h.spells.exists_openPart with ⟨hpackage, hread⟩ | ⟨tree, part, rfl, hadmissible, hpart⟩
  · exact ⟨[], .inl ⟨h.spells.package_iff.1 hpackage, rfl⟩, h.events_eq_nil hread,
      fun _ => List.nodup_nil⟩
  · exact ⟨tree.messages, tree.completedIn_append hpart, h.reports_of_append hpart,
      hadmissible.distinct⟩

/-- A refused token is not reported on. -/
theorem Refuses.events_run_cons {state : State} {token : Token} {error : ParseError}
    (h : Refuses allowRedefinition state token error) (rest : List Token) :
    (state.run allowRedefinition (token :: rest)).events = [] := by
  rw [run]
  split
  · rfl
  · next hkind =>
    rw [Refuses, if_neg hkind] at h
    rw [h]
    rfl

end State

/-! ## The main result -/

/-- The parser stops at the given place of a token list: at the first end of the input if it reads a
schema, and else at the token where it fails. -/
def StopsAt (allowRedefinition : Bool) (tokens : List Token) (place : Nat) : Prop :=
  match (Schema.ofTokens allowRedefinition tokens).result with
  | .ok _ => place = firstEnd tokens
  | .error _ => FailsAt allowRedefinition tokens place

namespace StopsAt

variable {allowRedefinition : Bool} {tokens : List Token}

/-- The parser stops at one place. -/
theorem unique {place other : Nat} (h : StopsAt allowRedefinition tokens place)
    (hother : StopsAt allowRedefinition tokens other) : place = other := by
  cases hresult : (Schema.ofTokens allowRedefinition tokens).result with
  | ok schema =>
      rw [StopsAt, hresult] at h hother
      exact h.trans hother.symm
  | error error =>
      rw [StopsAt, hresult] at h hother
      exact FailsAt.unique hother h

/-- The parser takes transitions up to the place where it stops, and reports nothing there. -/
theorem exists_steps (allowRedefinition : Bool) (tokens : List Token) :
    ∃ (read : List Token) (next : State), StopsAt allowRedefinition tokens read.length ∧
      tokens.take read.length = read ∧
      State.Steps allowRedefinition .start read next
        (Schema.ofTokens allowRedefinition tokens).events := by
  cases hresult : (Schema.ofTokens allowRedefinition tokens).result with
  | ok schema =>
      obtain ⟨read, rest, events, rfl, hrest, hsteps⟩ := State.run_eq_ok_iff.1 hresult
      obtain ⟨token, hrun⟩ := State.run_of_endsInput (.nextMessage schema) hrest
      refine ⟨read, .nextMessage schema, ?_, List.take_left, ?_⟩
      · rw [StopsAt, hresult]
        exact (firstEnd_append hsteps.kind_ne_endOfInput hrest).symm
      · rw [Schema.ofTokens, hsteps.run_append, hrun, Logged.after, Logged.ofExcept,
          List.append_nil]
        exact hsteps
  | error error =>
      obtain ⟨read, token, rest, state, events, htokens, hsteps, hrefuses⟩ :=
        State.exists_refuses_of_run hresult
      have hlength : read.length ≤ tokens.length := by
        have hsum := congrArg List.length htokens
        simp only [endedInput, List.length_append, List.length_cons, List.length_nil] at hsum
        omega
      have hended : (endedInput tokens).take read.length = tokens.take read.length :=
        List.take_append_of_le_length hlength
      have htake : tokens.take read.length = read := by
        rw [← hended, htokens, List.take_left]
      refine ⟨read, state, ?_, htake, ?_⟩
      · rw [StopsAt, hresult]
        exact hrefuses.failsAt hsteps htokens
      · rw [← Schema.ofTokens_endedInput, htokens, Schema.ofTokens, hsteps.run_append,
          Logged.after, hrefuses.events_run_cons, List.append_nil]
        exact hsteps

end StopsAt

/-- The log of a parser run follows the declarations: whether the run succeeds or fails, it stops at
one place of the token list, and its events are the reports on the declarations that are complete
before that place, in their order, each followed by a warning exactly if its name was declared
before. So the reports are as many as the messages of the schema and the warnings together, and
without redefinitions nothing is warned about. -/
theorem parse_log_follows_declarations (options : Options) (tokens : List Token) :
    (∃ place messages, StopsAt options.allowRedefinition tokens place ∧
      CompletedIn (tokens.take place) messages) ∧
    (∀ place messages, StopsAt options.allowRedefinition tokens place →
      CompletedIn (tokens.take place) messages →
      (Schema.ofTokens options.allowRedefinition tokens).events =
          MessageTree.reports [] messages ∧
        (Schema.ofTokens options.allowRedefinition tokens).events.filterMap Event.parsed? =
          messages.map fun tree => (tree.name.text, tree.fields.length)) ∧
    (∀ schema, (Schema.ofTokens options.allowRedefinition tokens).result = .ok schema →
      ((Schema.ofTokens options.allowRedefinition tokens).events.filterMap Event.parsed?).length =
        schema.messages.size +
          ((Schema.ofTokens options.allowRedefinition tokens).events.filterMap
            Event.redefined?).length) ∧
    (options.allowRedefinition = false →
      (Schema.ofTokens options.allowRedefinition tokens).events.filterMap Event.redefined? =
        []) := by
  obtain ⟨read, next, hstops, htake, hsteps⟩ :=
    StopsAt.exists_steps options.allowRedefinition tokens
  obtain ⟨messages, hcompleted, hevents, hdistinct⟩ := hsteps.exists_completed
  refine ⟨⟨read.length, messages, hstops, by rwa [htake]⟩, ?_, ?_, fun hallow => ?_⟩
  · intro place others hplace hothers
    obtain rfl := hstops.unique hplace
    rw [htake] at hothers
    obtain rfl := hcompleted.unique hothers
    rw [hevents]
    exact ⟨rfl, MessageTree.filterMap_parsed?_reports messages⟩
  · intro schema hschema
    obtain ⟨tree, rest, rfl, hrest, -, hadmissible, rfl⟩ := Schema.ofTokens_eq_ok.1 hschema
    obtain ⟨events, htree⟩ := State.steps_schema tree hadmissible
    -- A run that succeeds stops where the tokens of the tree end.
    rw [StopsAt, hschema, firstEnd_append htree.kind_ne_endOfInput hrest] at hstops
    have hread : read = tree.tokens := by
      rw [← htake, hstops, List.take_left]
    obtain rfl : messages = tree.messages := by
      refine hcompleted.unique ?_
      rw [hread, ← List.append_nil tree.tokens]
      exact tree.completedIn_append (by simp)
    rw [hevents, MessageTree.filterMap_parsed?_reports, List.length_map]
    exact tree.length_messages
  · rw [hevents]
    exact MessageTree.filterMap_redefined?_reports_of_nodup (hdistinct hallow)

/-- The tree of a schema that declares a message again after one that uses it. -/
def redeclaredNameTree : SchemaTree :=
  ⟨1, ⟨"p", 1⟩, 1,
    [⟨2, ⟨"A", 2⟩, 2, [], 2⟩,
     ⟨3, ⟨"B", 3⟩, 3, [⟨none, .message ⟨"A", 3⟩, ⟨"a", 3⟩, none, 3⟩], 3⟩,
     ⟨4, ⟨"A", 4⟩, 4, [], 4⟩]⟩

/-- Where redefinitions are allowed, only the second declaration of the name is warned about, and of
the three declarations two remain. -/
theorem redeclaredName_log :
    StopsAt true redeclaredName 18 ∧
    CompletedIn (redeclaredName.take 18) redeclaredNameTree.messages ∧
    (Schema.ofTokens true redeclaredName).events =
      [.parsed "A" 0, .parsed "B" 1, .parsed "A" 0, .redefined "A" 4] ∧
    redeclaredNameTree.meaning.messages.size = 2 := by
  have hschema : (Schema.ofTokens true redeclaredName).result = .ok redeclaredNameTree.meaning := by
    refine Schema.ofTokens_eq_ok.2
      ⟨redeclaredNameTree, [], rfl, trivial, by simp [redeclaredNameTree], ⟨?_, by simp⟩, rfl⟩
    simp [redeclaredNameTree, MessageTree.ScopedAfter, MessageTree.Scoped, TypeTree.Scoped]
  have hstops : StopsAt true redeclaredName 18 := by
    rw [StopsAt, hschema]
    decide
  have hcompleted : CompletedIn (redeclaredName.take 18) redeclaredNameTree.messages :=
    redeclaredNameTree.completedIn_append (by simp)
  obtain ⟨-, hlog, hcount, -⟩ :=
    parse_log_follows_declarations { allowRedefinition := true } redeclaredName
  obtain ⟨hevents, -⟩ := hlog 18 _ hstops hcompleted
  have hsum := hcount _ hschema
  rw [hevents] at hsum
  exact ⟨hstops, hcompleted, hevents, (Nat.add_right_cancel hsum).symm⟩

end SchemaCompiler
