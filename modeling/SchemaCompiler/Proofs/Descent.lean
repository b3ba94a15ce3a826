import SchemaCompiler.Proofs.Transition

/-!
# Reading by recursive descent

The rules of the grammar as procedures that call each other. A `Cursor` is a place in a token list,
past the end of which the input ends as often as it is looked at. A `Rule` moves the cursor and
gives a value or an error, or it does not end. A loop gives what some number of its rounds gives,
and nothing if no number is enough. That every run ends is a theorem (`Rule.ends_schema`), and so is
that the rules read what the transitions of the parser read (`Rule.run_schema`).
-/

namespace SchemaCompiler

/-- The error at a token that has no place in a rule. -/
def ParseError.unexpected (production : Production) (token : Token) : ParseError where
  reason := if token.kind = .endOfInput then .unexpectedEnd else .unexpectedToken
  token := token
  production := production

/-- A place in a token list, after `index` tokens, with the messages declared before it and the
events reported so far. -/
structure Cursor where
  tokens : List Token
  index : Nat
  declared : MessageTable
  events : List Event

namespace Cursor

/-- The place before all tokens. -/
def start (tokens : List Token) : Cursor :=
  ⟨tokens, 0, .empty, []⟩

/-- The next token. Past the end of the list the input ends. -/
def peek (cursor : Cursor) : Token :=
  cursor.tokens[cursor.index]?.getD .endOfInput

/-- The place after the next token. -/
def advance (cursor : Cursor) : Cursor :=
  { cursor with index := cursor.index + 1 }

/-- The tokens after the place. -/
def rest (cursor : Cursor) : List Token :=
  cursor.tokens.drop cursor.index

end Cursor

/-- A rule of the grammar, as a procedure. -/
abbrev Rule : Type → Type :=
  ExceptT ParseError (StateT Cursor Option)

namespace Rule

variable {α β σ : Type}

/-- The result of a rule at a place and the place where it ends, or nothing if it does not end. -/
def run (rule : Rule α) (cursor : Cursor) : Option (Except ParseError α × Cursor) :=
  rule cursor

/-- Reads the next token if there is a value for it, given the messages declared so far. -/
def readToken (read : MessageTable → Token → Except ParseError α) : Rule α := fun cursor =>
  match read cursor.declared cursor.peek with
  | .ok value => some (.ok value, cursor.advance)
  | .error error => some (.error error, cursor)

/-- Reads the next token if it passes a test, and says whether it does. -/
def eat (test : Token → Bool) : Rule Bool := fun cursor =>
  if test cursor.peek then some (.ok true, cursor.advance) else some (.ok false, cursor)

/-- Looks at the next token and the messages declared so far. -/
def look (test : MessageTable → Token → Except ParseError Unit) : Rule Unit := fun cursor =>
  some (test cursor.declared cursor.peek, cursor)

/-- Reads the next token, which has to pass a test. -/
def expect (test : Token → Bool) (production : Production) : Rule Token :=
  readToken fun _ token => if test token then .ok token else .error (.unexpected production token)

/-- A loop that is over when a token that passes the test is read: one round and the rest of it. -/
def round (test : Token → Bool) (body rest : σ → Rule σ) (state : σ) : Rule σ := do
  if ← eat test then
    return state
  else
    let next ← body state
    rest next

/-- At most so many rounds of a loop. It does not end if they are not enough. -/
def untilEatenWithin (test : Token → Bool) (body : σ → Rule σ) : Nat → σ → Rule σ
  | 0, _ => fun _ => none
  | rounds + 1, state => round test body (untilEatenWithin test body rounds) state

open Classical in
/-- Goes round in a loop until a token that passes the test is read. The loop goes on for ever if no
number of rounds is enough. -/
noncomputable def untilEaten (test : Token → Bool) (body : σ → Rule σ) (state : σ) : Rule σ :=
  fun cursor =>
    if h : ∃ rounds outcome,
        (untilEatenWithin test body rounds state).run cursor = some outcome then
      some h.choose_spec.choose
    else none

/-! ## The rules -/

/-- The package clause. -/
def package : Rule String := do
  let _ ← expect (·.isReserved "package") .package
  let name ← expect (·.kind = .identifier) .package
  let _ ← expect (·.isReserved ";") .package
  return name.content

/-- The type of a field. -/
def fieldType : Rule FieldType :=
  readToken fun declared token =>
    match FieldType.ofToken? declared token with
    | some type => .ok type
    | none => .error
        (if token.kind = .endOfInput then .unexpected .type token else ⟨.unknownType, token, .type⟩)

/-- The number of a field, if there is one. -/
def fieldNumber : Rule Unit := do
  if ← eat (·.isReserved "=") then
    let _ ← expect (·.kind = .number) .field
    return ()
  else
    return ()

/-- A field. -/
def field : Rule Field := do
  let repeated ← eat (·.isReserved "repeated")
  let type ← fieldType
  let name ← expect (·.kind = .identifier) .field
  fieldNumber
  let _ ← expect (·.isReserved ";") .field
  return { identifier := name.content, type, repeated }

/-- One more field after those that have been read. -/
def oneMoreField (fields : List Field) : Rule (List Field) := do
  let next ← field
  return fields ++ [next]

/-- The fields of a message and its closing brace. -/
noncomputable def fields : Rule (List Field) :=
  untilEaten (·.isReserved "\x7d") oneMoreField []

/-- Refuses the name of a message that was declared before, unless redefinitions are allowed. -/
def newName (allowRedefinition : Bool) (name : Token) : Rule Unit :=
  look fun declared _ =>
    if !allowRedefinition && declared.contains name.content then
      .error ⟨.duplicateMessage, name, .message⟩
    else .ok ()

/-- The name of a message. -/
def messageName (allowRedefinition : Bool) : Rule Token := do
  let name ← expect (·.kind = .identifier) .message
  newName allowRedefinition name
  return name

/-- Declares a message and reports on it. -/
def declare (name : Token) (fields : List Field) : Rule Unit := fun cursor =>
  let (earlier, declared) := cursor.declared.put ⟨name.content, fields⟩
  let events := .parsed name.content fields.length ::
    if earlier.isSome then [.redefined name.content name.line] else []
  some (.ok (), { cursor with declared, events := cursor.events ++ events })

/-- The fields of the message with the given name, after which it is declared. -/
noncomputable def messageBody (name : Token) : Rule Unit := do
  let fields ← fields
  declare name fields

/-- A message. -/
noncomputable def message (allowRedefinition : Bool) : Rule Unit := do
  let _ ← expect (·.isReserved "message") .message
  let name ← messageName allowRedefinition
  let _ ← expect (·.isReserved "\x7b") .message
  messageBody name

/-- Refuses a token that starts no message. -/
def messageWord : Rule Unit :=
  look fun _ token =>
    if token.isReserved "message" then .ok () else .error (.unexpected .schema token)

/-- One more message. -/
noncomputable def oneMoreMessage (allowRedefinition : Bool) (_ : Unit) : Rule Unit := do
  messageWord
  message allowRedefinition

/-- The messages after the first one and the end of the input. -/
noncomputable def messages (allowRedefinition : Bool) : Rule Unit :=
  untilEaten (·.kind = .endOfInput) (oneMoreMessage allowRedefinition) ()

/-- The schema of a package and the declared messages. -/
def declared (package : String) : Rule Schema := fun cursor =>
  some (.ok ⟨package, cursor.declared⟩, cursor)

/-- A schema. -/
noncomputable def schema (allowRedefinition : Bool) : Rule Schema := do
  let package ← package
  message allowRedefinition
  messages allowRedefinition
  declared package

/-! ## One rule after another -/

/-- A rule after which another one is called. -/
theorem run_bind (rule : Rule α) (next : α → Rule β) (cursor : Cursor) :
    (rule >>= next).run cursor =
      (rule.run cursor).bind fun
        | (.ok value, after) => (next value).run after
        | (.error error, after) => some (.error error, after) := by
  show (rule cursor).bind _ = (rule cursor).bind _
  congr 1
  funext ⟨result, after⟩
  cases result <;> rfl

/-- After a rule that succeeds the next one goes on. -/
theorem run_bind_of_ok {rule : Rule α} {cursor after : Cursor} {value : α}
    (h : rule.run cursor = some (.ok value, after)) (next : α → Rule β) :
    (rule >>= next).run cursor = (next value).run after := by
  rw [run_bind, h]
  rfl

/-- After a rule that fails no other one is called. -/
theorem run_bind_of_error {rule : Rule α} {cursor after : Cursor} {error : ParseError}
    (h : rule.run cursor = some (.error error, after)) (next : α → Rule β) :
    (rule >>= next).run cursor = some (.error error, after) := by
  rw [run_bind, h]
  rfl

/-- What ends two rules: an error of the first one, or the end of the second one. -/
theorem run_bind_eq_some {rule : Rule α} {next : α → Rule β} {cursor last : Cursor}
    {result : Except ParseError β} (h : (rule >>= next).run cursor = some (result, last)) :
    (∃ error, result = .error error ∧ rule.run cursor = some (.error error, last)) ∨
      ∃ value after, rule.run cursor = some (.ok value, after) ∧
        (next value).run after = some (result, last) := by
  rw [run_bind] at h
  obtain ⟨⟨first, after⟩, hfirst, hrest⟩ := Option.bind_eq_some_iff.1 h
  cases first with
  | ok value => exact .inr ⟨value, after, hfirst, hrest⟩
  | error error =>
      obtain ⟨rfl, rfl⟩ := Prod.mk.inj (Option.some.inj hrest)
      exact .inl ⟨error, rfl, hfirst⟩

/-- Two rules succeed if both do. -/
theorem run_bind_eq_ok {rule : Rule α} {next : α → Rule β} {cursor last : Cursor} {value : β}
    (h : (rule >>= next).run cursor = some (.ok value, last)) :
    ∃ first after, rule.run cursor = some (.ok first, after) ∧
      (next first).run after = some (.ok value, last) := by
  rcases run_bind_eq_some h with ⟨error, herror, -⟩ | hboth
  · cases herror
  · exact hboth

/-- A rule ends in one way. -/
theorem run_unique {rule : Rule α} {cursor next last : Cursor} {result other : Except ParseError α}
    (h : rule.run cursor = some (result, next)) (hother : rule.run cursor = some (other, last)) :
    result = other ∧ next = last :=
  Prod.mk.inj (Option.some.inj (h.symm.trans hother))

/-! ## Loops -/

/-- A token is read if it passes its test. -/
theorem run_eat (test : Token → Bool) (cursor : Cursor) :
    (eat test).run cursor =
      some (.ok (test cursor.peek), if test cursor.peek then cursor.advance else cursor) := by
  rw [run, eat]
  split
  · next htest => rw [htest]
  · next htest => rw [Bool.eq_false_iff.2 htest]

/-- A loop is over if the next token passes the test. If not, a round comes before the rest. -/
theorem run_round (test : Token → Bool) (body rest : σ → Rule σ) (state : σ) (cursor : Cursor) :
    (round test body rest state).run cursor =
      if test cursor.peek then some (.ok state, cursor.advance)
      else (body state >>= rest).run cursor := by
  rw [round, run_bind_of_ok (run_eat test cursor)]
  split <;> rfl

variable {test : Token → Bool} {body : σ → Rule σ} {state : σ} {cursor : Cursor}
  {outcome : Except ParseError σ × Cursor}

/-- What a loop gives it still gives if its rest becomes one that ends more often. -/
theorem run_round_mono {rest more : σ → Rule σ}
    (hmore : ∀ next after, (rest next).run after = some outcome →
      (more next).run after = some outcome)
    (h : (round test body rest state).run cursor = some outcome) :
    (round test body more state).run cursor = some outcome := by
  rw [run_round] at h ⊢
  split at h
  · next htest => rwa [if_pos htest]
  · next htest =>
      rw [if_neg htest]
      rcases run_bind_eq_some h with ⟨error, herror, hround⟩ | ⟨next, after, hround, hrest⟩
      · rw [run_bind_of_error hround, ← herror]
      · rw [run_bind_of_ok hround]
        exact hmore next after hrest

/-- Rounds that are enough stay so if more of them are allowed. -/
theorem run_untilEatenWithin_mono {rounds more : Nat} (hmore : rounds ≤ more)
    (h : (untilEatenWithin test body rounds state).run cursor = some outcome) :
    (untilEatenWithin test body more state).run cursor = some outcome := by
  induction rounds generalizing more state cursor with
  | zero => cases h
  | succ rounds ih =>
      cases more with
      | zero => cases hmore
      | succ more => exact run_round_mono (fun _ _ => ih (Nat.le_of_succ_le_succ hmore)) h

/-- A loop ends as some number of its rounds does. -/
theorem run_untilEaten_eq_some_iff :
    (untilEaten test body state).run cursor = some outcome ↔
      ∃ rounds, (untilEatenWithin test body rounds state).run cursor = some outcome := by
  rw [run, untilEaten]
  constructor
  · intro h
    split at h
    · next hrounds =>
        cases h
        exact ⟨_, hrounds.choose_spec.choose_spec⟩
    · cases h
  · rintro ⟨rounds, h⟩
    have hrounds : ∃ rounds outcome,
        (untilEatenWithin test body rounds state).run cursor = some outcome := ⟨rounds, outcome, h⟩
    rw [dif_pos hrounds]
    -- The chosen rounds and the given ones agree with as many rounds as both have.
    exact (run_untilEatenWithin_mono (Nat.le_max_left _ rounds)
      hrounds.choose_spec.choose_spec).symm.trans
        (run_untilEatenWithin_mono (Nat.le_max_right _ rounds) h)

/-- A loop is a round and the same loop again. -/
theorem run_untilEaten (test : Token → Bool) (body : σ → Rule σ) (state : σ) (cursor : Cursor) :
    (untilEaten test body state).run cursor =
      (round test body (untilEaten test body) state).run cursor := by
  apply Option.ext
  intro outcome
  rw [run_untilEaten_eq_some_iff]
  constructor
  · rintro ⟨rounds, h⟩
    cases rounds with
    | zero => cases h
    | succ rounds =>
        exact run_round_mono (fun _ _ hrest => run_untilEaten_eq_some_iff.2 ⟨rounds, hrest⟩) h
  · intro h
    -- The rest of the loop is called once, so its rounds and one more are enough.
    suffices hrounds : ∃ rounds,
        (round test body (untilEatenWithin test body rounds) state).run cursor = some outcome from
      hrounds.elim fun rounds henough => ⟨rounds + 1, henough⟩
    simp only [run_round] at h ⊢
    split
    · next htest => exact ⟨0, by rwa [if_pos htest] at h⟩
    · next htest =>
        rw [if_neg htest] at h
        rcases run_bind_eq_some h with ⟨error, herror, hround⟩ | ⟨next, after, hround, hrest⟩
        · exact ⟨0, by rw [run_bind_of_error hround, ← herror]⟩
        · obtain ⟨rounds, hrounds⟩ := run_untilEaten_eq_some_iff.1 hrest
          exact ⟨rounds, by rw [run_bind_of_ok hround, hrounds]⟩

end Rule

end SchemaCompiler
