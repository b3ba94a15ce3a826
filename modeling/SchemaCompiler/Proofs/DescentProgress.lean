import SchemaCompiler.Proofs.Descent

/-!
# Progress of the rules

`Rule.Progresses` says that a rule reads only tokens of the list that do not end the input,
`Rule.Takes` how many of them, and `Rule.Ends` that it ends. Each is proved rule by rule, and for
loops once: a round that succeeds leaves fewer tokens, so that a loop is over after some rounds
(`Rule.IsRound.untilEaten_cases`). No loop asks for the end of the list. The fields of a message end
there because the end of the input has no type and is not read.
-/

namespace SchemaCompiler

namespace Cursor

/-- `cursor.Reads read next` says that the tokens `read` come next, that none of them ends the
input, and that `next` is the place after them in the same list. -/
structure Reads (cursor : Cursor) (read : List Token) (next : Cursor) : Prop where
  tokens_eq : next.tokens = cursor.tokens
  index_eq : next.index = cursor.index + read.length
  rest_eq : cursor.rest = read ++ next.rest
  kind_ne : ∀ token ∈ read, token.kind ≠ .endOfInput

variable {cursor next last : Cursor} {read more : List Token}

/-- Declarations and reports do not move the place. -/
theorem Reads.of_eq (htokens : next.tokens = cursor.tokens) (hindex : next.index = cursor.index) :
    cursor.Reads [] next := by
  refine ⟨htokens, hindex, ?_, by simp⟩
  rw [rest, rest, htokens, hindex, List.nil_append]

/-- A place is where it is. -/
theorem Reads.refl (cursor : Cursor) : cursor.Reads [] cursor :=
  .of_eq rfl rfl

/-- Tokens are read one after the other. -/
theorem Reads.trans (h : cursor.Reads read next) (hmore : next.Reads more last) :
    cursor.Reads (read ++ more) last where
  tokens_eq := hmore.tokens_eq.trans h.tokens_eq
  index_eq := by rw [hmore.index_eq, h.index_eq, List.length_append, Nat.add_assoc]
  rest_eq := by rw [h.rest_eq, hmore.rest_eq, List.append_assoc]
  kind_ne := List.forall_mem_append.2 ⟨h.kind_ne, hmore.kind_ne⟩

/-- The next token is read if it does not end the input. It stands in the list, since past the list
the input ends. -/
theorem Reads.advance (h : cursor.peek.kind ≠ .endOfInput) :
    cursor.Reads [cursor.peek] cursor.advance := by
  have hlength : cursor.index < cursor.tokens.length := by
    by_contra hpast
    rw [peek, List.getElem?_eq_none (Nat.le_of_not_lt hpast)] at h
    exact h rfl
  have hpeek : cursor.peek = cursor.tokens[cursor.index] := by
    rw [peek, List.getElem?_eq_getElem hlength, Option.getD_some]
  refine ⟨rfl, rfl, ?_, List.forall_mem_singleton.2 h⟩
  rw [hpeek]
  exact List.drop_eq_getElem_cons hlength

/-- The tokens that are read are not left. -/
theorem Reads.length_eq (h : cursor.Reads read next) :
    read.length + (next.tokens.length - next.index) = cursor.tokens.length - cursor.index := by
  have hlength := congrArg List.length h.rest_eq
  rw [List.length_append, rest, rest, List.length_drop, List.length_drop] at hlength
  exact hlength.symm

/-- Reading does not go past the first end of the input. -/
theorem Reads.index_le_firstEnd (h : cursor.Reads read next)
    (hindex : cursor.index ≤ firstEnd cursor.tokens) : next.index ≤ firstEnd cursor.tokens := by
  by_contra hpast
  rw [h.index_eq, Nat.not_le] at hpast
  -- Otherwise the first end of the input is one of the tokens that are read.
  obtain ⟨place, hplace⟩ := Nat.exists_eq_add_of_le hindex
  have hread : place < read.length := by omega
  have hlist : cursor.tokens[firstEnd cursor.tokens]? = some read[place] := by
    rw [hplace, ← List.getElem?_drop, ← rest, h.rest_eq, List.getElem?_append_left hread,
      List.getElem?_eq_getElem hread]
  obtain ⟨hlength, htoken⟩ := List.getElem?_eq_some_iff.1 hlist
  have hkind : cursor.tokens[firstEnd cursor.tokens].kind = .endOfInput :=
    of_decide_eq_true (List.findIdx_getElem (w := hlength))
  exact h.kind_ne _ (List.getElem_mem hread) (htoken ▸ hkind)

end Cursor

namespace Rule

variable {α β σ : Type}

/-- However the rule ends, it has read tokens of the list that do not end the input. -/
def Progresses (rule : Rule α) : Prop :=
  ∀ cursor result next, rule.run cursor = some (result, next) → ∃ read, cursor.Reads read next

/-- The rule reads from `least` to `most` tokens if it succeeds. -/
def Takes (least most : Nat) (rule : Rule α) : Prop :=
  ∀ cursor value next, rule.run cursor = some (.ok value, next) →
    cursor.index + least ≤ next.index ∧ next.index ≤ cursor.index + most

/-- The rule ends. -/
def Ends (rule : Rule α) : Prop :=
  ∀ cursor, ∃ result next, rule.run cursor = some (result, next)

section

variable {rule : Rule α} {after : α → Rule β}

/-- Rules make progress one after the other. -/
theorem Progresses.bind (h : rule.Progresses) (hafter : ∀ value, (after value).Progresses) :
    (rule >>= after).Progresses := by
  intro cursor result last hrun
  rcases run_bind_eq_some hrun with ⟨error, -, hfirst⟩ | ⟨value, middle, hfirst, hsecond⟩
  · exact h _ _ _ hfirst
  · obtain ⟨read, hread⟩ := h _ _ _ hfirst
    obtain ⟨more, hmore⟩ := hafter value _ _ _ hsecond
    exact ⟨read ++ more, hread.trans hmore⟩

/-- The tokens that a rule reads are as many as it takes. -/
theorem Progresses.exists_reads (h : rule.Progresses) {least most : Nat}
    (htakes : rule.Takes least most) {cursor next : Cursor} {value : α}
    (hrun : rule.run cursor = some (.ok value, next)) :
    ∃ read, cursor.Reads read next ∧ least ≤ read.length ∧ read.length ≤ most := by
  obtain ⟨read, hread⟩ := h _ _ _ hrun
  have htaken := htakes _ _ _ hrun
  have hindex := hread.index_eq
  exact ⟨read, hread, by omega, by omega⟩

/-- Rules take their tokens one after the other. -/
theorem Takes.bind {least most leastAfter mostAfter : Nat} (h : rule.Takes least most)
    (hafter : ∀ value, (after value).Takes leastAfter mostAfter) :
    (rule >>= after).Takes (least + leastAfter) (most + mostAfter) := by
  intro cursor value last hrun
  obtain ⟨first, middle, hfirst, hsecond⟩ := run_bind_eq_ok hrun
  have htaken := h _ _ _ hfirst
  have hmore := hafter first _ _ _ hsecond
  omega

/-- The bounds on the tokens of a rule can be widened. -/
theorem Takes.mono {least most lower upper : Nat} (h : rule.Takes least most)
    (hlower : lower ≤ least) (hupper : most ≤ upper) : rule.Takes lower upper := by
  intro cursor value next hrun
  have htaken := h _ _ _ hrun
  omega

/-- Rules end one after the other. -/
theorem Ends.bind (h : rule.Ends) (hafter : ∀ value, (after value).Ends) :
    (rule >>= after).Ends := by
  intro cursor
  obtain ⟨result, middle, hfirst⟩ := h cursor
  cases result with
  | ok value => exact run_bind_of_ok hfirst after ▸ hafter value middle
  | error error => exact ⟨.error error, middle, run_bind_of_error hfirst after⟩

end

/-- The rule ends where it is called. -/
def Steady (rule : Rule α) : Prop :=
  ∀ cursor, ∃ result next, rule.run cursor = some (result, next) ∧
    next.tokens = cursor.tokens ∧ next.index = cursor.index

namespace Steady

variable {rule : Rule α}

/-- A rule that does not move reads nothing. -/
theorem reads (h : rule.Steady) {cursor next : Cursor} {result : Except ParseError α}
    (hrun : rule.run cursor = some (result, next)) : cursor.Reads [] next := by
  obtain ⟨other, place, hplace, htokens, hindex⟩ := h cursor
  obtain ⟨rfl, rfl⟩ := run_unique hplace hrun
  exact .of_eq htokens hindex

/-- Staying is no step back. -/
theorem progresses (h : rule.Steady) : rule.Progresses :=
  fun _ _ _ hrun => ⟨[], h.reads hrun⟩

/-- A rule that does not move takes no token. -/
theorem takes (h : rule.Steady) : rule.Takes 0 0 := by
  intro cursor value next hrun
  rw [(h.reads hrun).index_eq]
  exact ⟨Nat.le_refl _, Nat.le_refl _⟩

/-- A rule that does not move ends. -/
theorem ends (h : rule.Steady) : rule.Ends := by
  intro cursor
  obtain ⟨result, next, hrun, -⟩ := h cursor
  exact ⟨result, next, hrun⟩

end Steady

/-- A value is given where the rule is called. -/
theorem steady_pure (value : α) : (pure value : Rule α).Steady :=
  fun cursor => ⟨.ok value, cursor, rfl, rfl, rfl⟩

/-- Looking does not move. -/
theorem steady_look (test : MessageTable → Token → Except ParseError Unit) : (look test).Steady :=
  fun cursor => ⟨_, cursor, rfl, rfl, rfl⟩

/-- Declaring does not move. -/
theorem steady_declare (name : Token) (fields : List Field) : (declare name fields).Steady :=
  fun _ => ⟨_, _, rfl, rfl, rfl⟩

/-- Giving the schema does not move. -/
theorem steady_declared (package : String) : (declared package).Steady :=
  fun cursor => ⟨_, cursor, rfl, rfl, rfl⟩

/-- A token is read if there is a value for it. -/
theorem run_readToken (read : MessageTable → Token → Except ParseError α) (cursor : Cursor) :
    (readToken read).run cursor =
      some (read cursor.declared cursor.peek,
        if (read cursor.declared cursor.peek).isOk then cursor.advance else cursor) := by
  rw [run, readToken]
  split
  · next value hvalue => rw [hvalue]; rfl
  · next error herror => rw [herror]; rfl

/-- Reading a token ends. -/
theorem ends_readToken (read : MessageTable → Token → Except ParseError α) :
    (readToken read).Ends :=
  fun cursor => ⟨_, _, run_readToken read cursor⟩

/-- Reading a token takes one. -/
theorem takes_readToken (read : MessageTable → Token → Except ParseError α) :
    (readToken read).Takes 1 1 := by
  intro cursor value next hrun
  obtain ⟨hvalue, rfl⟩ := run_unique (run_readToken read cursor) hrun
  rw [hvalue]
  exact ⟨Nat.le_refl _, Nat.le_refl _⟩

/-- Reading a token makes progress if the end of the input has no value. -/
theorem progresses_readToken {read : MessageTable → Token → Except ParseError α}
    (h : ∀ declared token value, read declared token = .ok value → token.kind ≠ .endOfInput) :
    (readToken read).Progresses := by
  intro cursor result next hrun
  obtain ⟨hresult, rfl⟩ := run_unique (run_readToken read cursor) hrun
  rw [hresult]
  cases result with
  | ok value => exact ⟨_, .advance (h _ _ _ hresult)⟩
  | error error => exact ⟨[], .refl cursor⟩

/-- A test that the end of the input does not pass. -/
def RefusesEnd (test : Token → Bool) : Prop :=
  ∀ token, test token = true → token.kind ≠ .endOfInput

/-- The end of the input is no reserved word. -/
theorem refusesEnd_isReserved (word : String) : RefusesEnd (·.isReserved word) := by
  intro token htoken hkind
  simp [Token.isReserved, hkind] at htoken

/-- The end of the input is of no other kind. -/
theorem refusesEnd_kind {kind : TokenKind} (h : kind ≠ .endOfInput) :
    RefusesEnd (·.kind = kind) :=
  fun _ htoken hkind => h ((of_decide_eq_true htoken).symm.trans hkind)

variable {test : Token → Bool}

/-- A token that is due is read if it passes its test. -/
theorem run_expect (test : Token → Bool) (production : Production) (cursor : Cursor) :
    (expect test production).run cursor =
      if test cursor.peek then some (.ok cursor.peek, cursor.advance)
      else some (.error (.unexpected production cursor.peek), cursor) := by
  rw [expect, run_readToken]
  split
  · rfl
  · rfl

/-- A token that is due makes progress. -/
theorem progresses_expect (h : RefusesEnd test) (production : Production) :
    (expect test production).Progresses := by
  refine progresses_readToken fun _ token value hvalue => ?_
  split_ifs at hvalue with htest
  exact h token htest

/-- Trying a token makes progress. -/
theorem progresses_eat (h : RefusesEnd test) : (eat test).Progresses := by
  intro cursor result next hrun
  obtain ⟨-, rfl⟩ := run_unique (run_eat test cursor) hrun
  split
  · next htest => exact ⟨_, .advance (h _ htest)⟩
  · exact ⟨[], .refl cursor⟩

/-- Trying a token takes at most one. -/
theorem takes_eat (test : Token → Bool) : (eat test).Takes 0 1 := by
  intro cursor result next hrun
  obtain ⟨-, rfl⟩ := run_unique (run_eat test cursor) hrun
  split
  · exact ⟨Nat.le_succ _, Nat.le_refl _⟩
  · exact ⟨Nat.le_refl _, Nat.le_succ _⟩

/-- Trying a token ends. -/
theorem ends_eat (test : Token → Bool) : (eat test).Ends :=
  fun cursor => ⟨_, _, run_eat test cursor⟩

/-! ## Loops -/

/-- `LoopRun test body state cursor last final` says that rounds of the loop that all succeed lead
from `state` at `cursor` to `last` at `final`. -/
inductive LoopRun (test : Token → Bool) (body : σ → Rule σ) :
    σ → Cursor → σ → Cursor → Prop where
  | refl (state cursor) : LoopRun test body state cursor state cursor
  | round {state next last cursor after final} :
      test cursor.peek = false →
      (body state).run cursor = some (.ok next, after) →
      LoopRun test body next after last final →
      LoopRun test body state cursor last final

/-- The rounds of a loop make progress, read a token if they succeed, and end. -/
structure IsRound (body : σ → Rule σ) : Prop where
  progresses : ∀ state, (body state).Progresses
  index_lt : ∀ state cursor next after, (body state).run cursor = some (.ok next, after) →
    cursor.index < after.index
  ends : ∀ state, (body state).Ends

namespace IsRound

variable {body : σ → Rule σ}

/-- A loop is over after some rounds: the next token passes the test, or the next round fails. -/
theorem untilEaten_cases (h : IsRound body) (test : Token → Bool) (state : σ) (cursor : Cursor) :
    ∃ last final, LoopRun test body state cursor last final ∧
      ((test final.peek = true ∧
          (untilEaten test body state).run cursor = some (.ok last, final.advance)) ∨
        test final.peek = false ∧ ∃ error next,
          (body last).run final = some (.error error, next) ∧
          (untilEaten test body state).run cursor = some (.error error, next)) := by
  -- A round that succeeds leaves fewer tokens, and none succeeds where no tokens are left.
  induction hleft : cursor.tokens.length - cursor.index using Nat.strong_induction_on
    generalizing cursor state with
  | _ left ih =>
    have hrun := (run_untilEaten test body state cursor).trans (run_round _ _ _ _ _)
    cases htest : test cursor.peek with
    | true =>
        rw [if_pos htest] at hrun
        exact ⟨state, cursor, .refl _ _, .inl ⟨htest, hrun⟩⟩
    | false =>
        rw [if_neg (Bool.eq_false_iff.1 htest)] at hrun
        obtain ⟨result, after, hround⟩ := h.ends state cursor
        cases result with
        | error error =>
            rw [run_bind_of_error hround] at hrun
            exact ⟨state, cursor, .refl _ _, .inr ⟨htest, error, after, hround, hrun⟩⟩
        | ok next =>
            rw [run_bind_of_ok hround] at hrun
            obtain ⟨read, hread⟩ := h.progresses state _ _ _ hround
            have hless := h.index_lt state _ _ _ hround
            have hindex := hread.index_eq
            have hlength := hread.length_eq
            obtain ⟨last, final, hrounds, hend⟩ := ih _ (by omega) next after rfl
            exact ⟨last, final, .round htest hround hrounds, by rwa [hrun]⟩

/-- A loop ends. -/
theorem ends_untilEaten (h : IsRound body) (test : Token → Bool) (state : σ) :
    (untilEaten test body state).Ends := by
  intro cursor
  obtain ⟨last, final, -, hend | ⟨-, error, next, -, hend⟩⟩ := h.untilEaten_cases test state cursor
  · exact ⟨_, _, hend.2⟩
  · exact ⟨_, _, hend⟩

/-- The rounds of a loop read tokens. -/
theorem exists_reads (h : IsRound body) {state last : σ} {cursor final : Cursor}
    (hrounds : LoopRun test body state cursor last final) : ∃ read, cursor.Reads read final := by
  induction hrounds with
  | refl state cursor => exact ⟨[], .refl cursor⟩
  | round _ hround _ ih =>
      obtain ⟨read, hread⟩ := h.progresses _ _ _ _ hround
      obtain ⟨more, hmore⟩ := ih
      exact ⟨read ++ more, hread.trans hmore⟩

/-- A loop makes progress before the token that ends it. -/
theorem exists_reads_untilEaten (h : IsRound body) {state : σ} {cursor next : Cursor}
    {result : Except ParseError σ}
    (hrun : (untilEaten test body state).run cursor = some (result, next)) :
    ∃ read final, cursor.Reads read final ∧
      (next = final ∨ test final.peek = true ∧ next = final.advance) := by
  obtain ⟨last, final, hrounds, ⟨htest, hend⟩ | ⟨-, error, after, hround, hend⟩⟩ :=
    h.untilEaten_cases test state cursor
  · obtain ⟨-, rfl⟩ := run_unique hend hrun
    obtain ⟨read, hread⟩ := h.exists_reads hrounds
    exact ⟨read, final, hread, .inr ⟨htest, rfl⟩⟩
  · obtain ⟨-, rfl⟩ := run_unique hend hrun
    obtain ⟨read, hread⟩ := h.exists_reads hrounds
    obtain ⟨more, hmore⟩ := h.progresses _ _ _ _ hround
    exact ⟨read ++ more, after, hread.trans hmore, .inl rfl⟩

/-- A loop makes progress if the token that ends it does not end the input. -/
theorem progresses_untilEaten (h : IsRound body) (htest : RefusesEnd test) (state : σ) :
    (untilEaten test body state).Progresses := by
  intro cursor result next hrun
  obtain ⟨read, final, hread, rfl | ⟨hfinal, rfl⟩⟩ := h.exists_reads_untilEaten hrun
  · exact ⟨read, hread⟩
  · exact ⟨_, hread.trans (.advance (htest _ hfinal))⟩

end IsRound

/-! ## Fields -/

/-- A type makes progress. -/
theorem progresses_fieldType : fieldType.Progresses := by
  refine progresses_readToken fun declared token type htype hkind => ?_
  simp [FieldType.ofToken?, hkind] at htype

/-- The number of a field makes progress. -/
theorem progresses_fieldNumber : fieldNumber.Progresses := by
  refine (progresses_eat (refusesEnd_isReserved "=")).bind fun found => ?_
  cases found with
  | true =>
      exact (progresses_expect (refusesEnd_kind (by decide)) .field).bind fun _ =>
        (steady_pure ()).progresses
  | false => exact (steady_pure ()).progresses

/-- The number of a field takes at most two tokens. -/
theorem takes_fieldNumber : fieldNumber.Takes 0 2 := by
  refine (takes_eat _).bind fun found => (?_ : Takes 0 1 _)
  cases found with
  | true =>
      exact .mono ((takes_readToken _).bind fun _ => (steady_pure ()).takes) (by decide)
        (by decide)
  | false => exact (steady_pure ()).takes.mono (by decide) (by decide)

/-- The number of a field ends. -/
theorem ends_fieldNumber : fieldNumber.Ends := by
  refine (ends_eat _).bind fun found => ?_
  cases found with
  | true => exact (ends_readToken _).bind fun _ => (steady_pure ()).ends
  | false => exact (steady_pure ()).ends

/-- A field makes progress. -/
theorem progresses_field : field.Progresses :=
  (progresses_eat (refusesEnd_isReserved "repeated")).bind fun _ =>
    progresses_fieldType.bind fun _ =>
    (progresses_expect (refusesEnd_kind (by decide)) .field).bind fun _ =>
    progresses_fieldNumber.bind fun _ =>
    (progresses_expect (refusesEnd_isReserved ";") .field).bind fun _ => (steady_pure _).progresses

/-- A field takes three to six tokens. -/
theorem takes_field : field.Takes 3 6 :=
  (takes_eat _).bind fun _ => (takes_readToken _).bind fun _ => (takes_readToken _).bind fun _ =>
    takes_fieldNumber.bind fun _ => (takes_readToken _).bind fun _ => (steady_pure _).takes

/-- A field ends. -/
theorem ends_field : field.Ends :=
  (ends_eat _).bind fun _ => (ends_readToken _).bind fun _ => (ends_readToken _).bind fun _ =>
    ends_fieldNumber.bind fun _ => (ends_readToken _).bind fun _ => (steady_pure _).ends

/-- A field is a round of a loop. -/
theorem isRound_oneMoreField : IsRound oneMoreField where
  progresses _ := progresses_field.bind fun _ => (steady_pure _).progresses
  index_lt _ cursor next after hrun := by
    have htaken := (takes_field.bind fun _ => (steady_pure _).takes) _ _ _ hrun
    omega
  ends _ := ends_field.bind fun _ => (steady_pure _).ends

/-- `FieldRun cursor parts last` says that fields are read one after the other from `cursor` to
`last`, and lists them with the tokens of each. -/
inductive FieldRun : Cursor → List (Field × List Token) → Cursor → Prop where
  | nil (cursor) : FieldRun cursor [] cursor
  | cons {cursor next last value read parts} :
      field.run cursor = some (.ok value, next) →
      cursor.Reads read next →
      FieldRun next parts last →
      FieldRun cursor ((value, read) :: parts) last

/-- The tokens of fields that are read one after the other are read. -/
theorem FieldRun.reads {cursor last : Cursor} {parts : List (Field × List Token)}
    (h : FieldRun cursor parts last) : cursor.Reads (parts.map Prod.snd).flatten last := by
  induction h with
  | nil cursor => exact .refl cursor
  | cons _ hread _ ih => exact hread.trans ih

/-- The rounds of the loop over the fields read fields one after the other. -/
theorem exists_fieldRun {fields last : List Field} {cursor final : Cursor}
    (h : LoopRun test oneMoreField fields cursor last final) :
    ∃ parts, FieldRun cursor parts final ∧ last = fields ++ parts.map Prod.fst := by
  induction h with
  | refl fields cursor => exact ⟨[], .nil cursor, by simp⟩
  | round _ hround _ ih =>
      obtain ⟨value, after, hfield, hnext⟩ := run_bind_eq_ok hround
      cases hnext
      obtain ⟨read, hread⟩ := progresses_field _ _ _ hfield
      obtain ⟨parts, hparts, rfl⟩ := ih
      exact ⟨(value, read) :: parts, .cons hfield hread hparts, by simp⟩

/-! ## Messages -/

/-- The fields of a message and its closing brace make progress. -/
theorem progresses_fields : fields.Progresses :=
  isRound_oneMoreField.progresses_untilEaten (refusesEnd_isReserved "\x7d") []

/-- The name of a message makes progress. -/
theorem progresses_messageName (allowRedefinition : Bool) :
    (messageName allowRedefinition).Progresses :=
  (progresses_expect (refusesEnd_kind (by decide)) .message).bind fun _ =>
    (steady_look _).progresses.bind fun _ => (steady_pure _).progresses

/-- The name of a message takes one token. -/
theorem takes_messageName (allowRedefinition : Bool) : (messageName allowRedefinition).Takes 1 1 :=
  (takes_readToken _).bind fun _ => (steady_look _).takes.bind fun _ => (steady_pure _).takes

/-- The name of a message ends. -/
theorem ends_messageName (allowRedefinition : Bool) : (messageName allowRedefinition).Ends :=
  (ends_readToken _).bind fun _ => (steady_look _).ends.bind fun _ => (steady_pure _).ends

/-- The body of a message makes progress. -/
theorem progresses_messageBody (name : Token) : (messageBody name).Progresses :=
  progresses_fields.bind fun _ => (steady_declare _ _).progresses

/-- A message makes progress. -/
theorem progresses_message (allowRedefinition : Bool) : (message allowRedefinition).Progresses :=
  (progresses_expect (refusesEnd_isReserved "message") .message).bind fun _ =>
    (progresses_messageName allowRedefinition).bind fun _ =>
    (progresses_expect (refusesEnd_isReserved "\x7b") .message).bind fun _ =>
    progresses_messageBody _

/-- A message ends. -/
theorem ends_message (allowRedefinition : Bool) : (message allowRedefinition).Ends :=
  (ends_readToken _).bind fun _ => (ends_messageName allowRedefinition).bind fun _ =>
    (ends_readToken _).bind fun _ => (isRound_oneMoreField.ends_untilEaten _ []).bind fun _ =>
    (steady_declare _ _).ends

/-- A message is a head of three tokens, fields one after the other, and a closing brace. -/
theorem exists_fieldRun_of_message {allowRedefinition : Bool} {cursor next : Cursor}
    (h : (message allowRedefinition).run cursor = some (.ok (), next)) :
    ∃ (head : List Token) (body last : Cursor) (name close : Token)
        (parts : List (Field × List Token)),
      head.length = 3 ∧ cursor.Reads head body ∧ FieldRun body parts last ∧
        cursor.Reads (head ++ (parts.map Prod.snd).flatten ++ [close]) next ∧
        next.declared = last.declared.insert ⟨name.content, parts.map Prod.fst⟩ := by
  obtain ⟨_, afterWord, hword, h⟩ := run_bind_eq_ok h
  obtain ⟨name, afterName, hname, h⟩ := run_bind_eq_ok h
  obtain ⟨_, body, hbrace, h⟩ := run_bind_eq_ok h
  obtain ⟨fields, afterFields, hfields, hdeclare⟩ := run_bind_eq_ok h
  obtain ⟨wordRead, hwordRead, hwordLength⟩ :=
    (progresses_expect (refusesEnd_isReserved _) _).exists_reads (takes_readToken _) hword
  obtain ⟨nameRead, hnameRead, hnameLength⟩ :=
    (progresses_messageName _).exists_reads (takes_messageName _) hname
  obtain ⟨braceRead, hbraceRead, hbraceLength⟩ :=
    (progresses_expect (refusesEnd_isReserved _) _).exists_reads (takes_readToken _) hbrace
  have hhead := (hwordRead.trans hnameRead).trans hbraceRead
  obtain ⟨read, last, hrounds, ⟨hclose, hend⟩ | ⟨-, error, after, -, hend⟩⟩ :=
    isRound_oneMoreField.untilEaten_cases (·.isReserved "\x7d") [] body
  · obtain ⟨hread, rfl⟩ := run_unique hend hfields
    obtain ⟨parts, hparts, rfl⟩ := exists_fieldRun hrounds
    cases hread
    refine ⟨_, body, last, name, last.peek, parts, ?_, hhead, hparts, ?_, ?_⟩
    · simp only [List.length_append]
      omega
    · have hlast := (hhead.trans hparts.reads).trans
        (.advance (refusesEnd_isReserved _ _ hclose))
      have hnext := hlast.trans ((steady_declare _ _).reads hdeclare)
      rwa [List.append_nil] at hnext
    · cases hdeclare
      rfl
  · cases (run_unique hend hfields).1

/-- A message is a round of a loop. -/
theorem isRound_oneMoreMessage (allowRedefinition : Bool) :
    IsRound (oneMoreMessage allowRedefinition) where
  progresses _ := (steady_look _).progresses.bind fun _ => progresses_message allowRedefinition
  index_lt _ cursor next after hrun := by
    obtain ⟨_, middle, hword, hmessage⟩ := run_bind_eq_ok hrun
    obtain ⟨head, body, last, name, close, parts, hhead, -, -, hread, -⟩ :=
      exists_fieldRun_of_message hmessage
    have hstart := ((steady_look _).reads hword).index_eq
    have hindex := hread.index_eq
    simp only [List.length_append, List.length_nil, hhead] at hstart hindex
    omega
  ends _ := (steady_look _).ends.bind fun _ => ends_message allowRedefinition

/-- The messages after the first one end. -/
theorem ends_messages (allowRedefinition : Bool) : (messages allowRedefinition).Ends :=
  (isRound_oneMoreMessage allowRedefinition).ends_untilEaten _ ()

/-- The rule goes at most one past the first end of the input. -/
def StopsAtEnd (rule : Rule α) : Prop :=
  ∀ cursor result next, rule.run cursor = some (result, next) →
    cursor.index ≤ firstEnd cursor.tokens → next.index ≤ firstEnd cursor.tokens + 1

/-- A rule that makes progress before one that stops at the end stops there. -/
theorem Progresses.stopsAtEnd_bind {rule : Rule α} {after : α → Rule β} (h : rule.Progresses)
    (hafter : ∀ value, (after value).StopsAtEnd) : (rule >>= after).StopsAtEnd := by
  intro cursor result last hrun hindex
  rcases run_bind_eq_some hrun with ⟨error, -, hfirst⟩ | ⟨value, middle, hfirst, hsecond⟩
  · obtain ⟨read, hread⟩ := h _ _ _ hfirst
    exact Nat.le_succ_of_le (hread.index_le_firstEnd hindex)
  · obtain ⟨read, hread⟩ := h _ _ _ hfirst
    have hmiddle := hread.index_le_firstEnd hindex
    rw [← hread.tokens_eq] at hmiddle ⊢
    exact hafter value _ _ _ hsecond hmiddle

/-- The messages after the first one stop at the end. -/
theorem stopsAtEnd_messages (allowRedefinition : Bool) :
    (messages allowRedefinition).StopsAtEnd := by
  intro cursor result next hrun hindex
  obtain ⟨read, final, hread, rfl | ⟨-, rfl⟩⟩ :=
    (isRound_oneMoreMessage allowRedefinition).exists_reads_untilEaten hrun
  · exact Nat.le_succ_of_le (hread.index_le_firstEnd hindex)
  · exact Nat.succ_le_succ (hread.index_le_firstEnd hindex)

/-- The package clause makes progress. -/
theorem progresses_package : package.Progresses :=
  (progresses_expect (refusesEnd_isReserved "package") .package).bind fun _ =>
    (progresses_expect (refusesEnd_kind (by decide)) .package).bind fun _ =>
    (progresses_expect (refusesEnd_isReserved ";") .package).bind fun _ =>
    (steady_pure _).progresses

/-- The package clause ends. -/
theorem ends_package : package.Ends :=
  (ends_readToken _).bind fun _ => (ends_readToken _).bind fun _ =>
    (ends_readToken _).bind fun _ => (steady_pure _).ends

/-- A schema ends. -/
theorem ends_schema (allowRedefinition : Bool) : (schema allowRedefinition).Ends :=
  ends_package.bind fun _ => (ends_message allowRedefinition).bind fun _ =>
    (ends_messages allowRedefinition).bind fun _ => (steady_declared _).ends

/-- A schema stops at the end. -/
theorem stopsAtEnd_schema (allowRedefinition : Bool) : (schema allowRedefinition).StopsAtEnd := by
  refine progresses_package.stopsAtEnd_bind fun package =>
    (progresses_message allowRedefinition).stopsAtEnd_bind fun _ => ?_
  intro cursor result next hrun hindex
  rcases run_bind_eq_some hrun with ⟨error, -, hfirst⟩ | ⟨value, middle, hfirst, hsecond⟩
  · exact stopsAtEnd_messages allowRedefinition _ _ _ hfirst hindex
  · rw [((steady_declared package).reads hsecond).index_eq]
    exact stopsAtEnd_messages allowRedefinition _ _ _ hfirst hindex

/-! ## Places that are reached -/

/-- The calls of a parser run, except for those that can read the end of the input. -/
inductive IsCall (allowRedefinition : Bool) : {α : Type} → Rule α → Prop where
  | expectWord (word production) : IsCall allowRedefinition (expect (·.isReserved word) production)
  | expectIdentifier (production) :
      IsCall allowRedefinition (expect (·.kind = .identifier) production)
  | expectNumber (production) : IsCall allowRedefinition (expect (·.kind = .number) production)
  | eatWord (word) : IsCall allowRedefinition (eat (·.isReserved word))
  | package : IsCall allowRedefinition package
  | fieldType : IsCall allowRedefinition fieldType
  | fieldNumber : IsCall allowRedefinition fieldNumber
  | field : IsCall allowRedefinition field
  | oneMoreField (fields) : IsCall allowRedefinition (oneMoreField fields)
  | fields : IsCall allowRedefinition fields
  | newName (name) : IsCall allowRedefinition (newName allowRedefinition name)
  | messageName : IsCall allowRedefinition (messageName allowRedefinition)
  | declare (name fields) : IsCall allowRedefinition (declare name fields)
  | messageBody (name) : IsCall allowRedefinition (messageBody name)
  | message : IsCall allowRedefinition (message allowRedefinition)
  | messageWord : IsCall allowRedefinition messageWord
  | oneMoreMessage : IsCall allowRedefinition (oneMoreMessage allowRedefinition ())
  | declared (package) : IsCall allowRedefinition (declared package)

/-- Every call makes progress. -/
theorem IsCall.progresses {allowRedefinition : Bool} {rule : Rule α}
    (h : IsCall allowRedefinition rule) : rule.Progresses := by
  cases h with
  | expectWord word production => exact progresses_expect (refusesEnd_isReserved word) production
  | expectIdentifier production => exact progresses_expect (refusesEnd_kind (by decide)) production
  | expectNumber production => exact progresses_expect (refusesEnd_kind (by decide)) production
  | eatWord word => exact progresses_eat (refusesEnd_isReserved word)
  | package => exact progresses_package
  | fieldType => exact progresses_fieldType
  | fieldNumber => exact progresses_fieldNumber
  | field => exact progresses_field
  | oneMoreField fields => exact isRound_oneMoreField.progresses fields
  | fields => exact progresses_fields
  | newName name => exact (steady_look _).progresses
  | messageName => exact progresses_messageName allowRedefinition
  | declare name fields => exact (steady_declare name fields).progresses
  | messageBody name => exact progresses_messageBody name
  | message => exact progresses_message allowRedefinition
  | messageWord => exact (steady_look _).progresses
  | oneMoreMessage => exact (isRound_oneMoreMessage allowRedefinition).progresses ()
  | declared package => exact (steady_declared package).progresses

end Rule

/-- The places that a parser run comes to: the start, and the ends of its calls. -/
inductive Cursor.Reached (allowRedefinition : Bool) (tokens : List Token) : Cursor → Prop where
  | start : Reached allowRedefinition tokens (.start tokens)
  | call {α : Type} {rule : Rule α} {cursor next result} :
      Reached allowRedefinition tokens cursor →
      Rule.IsCall allowRedefinition rule →
      rule.run cursor = some (result, next) →
      Reached allowRedefinition tokens next

/-- The run has read tokens that do not end the input up to every place that it comes to. -/
theorem Cursor.Reached.exists_reads {allowRedefinition : Bool} {tokens : List Token}
    {cursor : Cursor} (h : Reached allowRedefinition tokens cursor) :
    ∃ read, (Cursor.start tokens).Reads read cursor := by
  induction h with
  | start => exact ⟨[], .refl _⟩
  | call _ hrule hrun ih =>
      obtain ⟨read, hread⟩ := ih
      obtain ⟨more, hmore⟩ := hrule.progresses _ _ _ hrun
      exact ⟨read ++ more, hread.trans hmore⟩

end SchemaCompiler
