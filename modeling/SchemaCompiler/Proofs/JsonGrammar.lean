import Mathlib.Data.List.TakeWhile
import SchemaCompiler.Proofs.JsonReading
import SchemaCompiler.Proofs.Outcome

/-!
# A grammar of JSON texts

What it means that a value stands in a JSON text. `ValueAt text value rest` says that `text` starts
with `value` and that `rest` is what follows it. The relation is written without the readers: spaces
may stand around every part, a character of a string may be spelled in each of the ways that JSON
has for it, and a comma stands before every item and member but the first one.

The readers give exactly what stands in the text. There is one statement for each of them, up to
`readFlag_eq_ok_iff` and `readTextList_eq_ok_iff`. They are equivalences, so that a text that is no
such value is refused.
-/

namespace SchemaCompiler.Json

/-! ## The grammar -/

/-- A text is another one after some spaces. -/
def Spaced (text rest : List Char) : Prop :=
  ∃ spaces, (∀ c ∈ spaces, isSpace c = true) ∧ text = spaces ++ rest

/-- The next item of a list, or the next member of an object, is due at the start of `start`: after
spaces if it is the first one, and else after a comma with spaces around it. -/
def Due (first : Bool) (text start : List Char) : Prop :=
  if first then Spaced text start
  else ∃ next, Spaced text (',' :: next) ∧ Spaced next start

/-- The letters that can stand after a backslash, with the characters that they stand for. -/
def letterEscapes : List (Char × Char) :=
  [('"', '"'), ('\\', '\\'), ('/', '/'), ('b', '\x08'), ('f', '\x0c'), ('n', '\n'), ('r', '\r'),
   ('t', '\t')]

/-- A text starts with four hexadecimal digits, the most significant one first, which are the digits
of the code. -/
inductive CodeAt : List Char → Nat → List Char → Prop where
  | digits {a b c d : Char} {first second third fourth : Nat} (rest : List Char)
      (ha : Text.hexValue? a = some first) (hb : Text.hexValue? b = some second)
      (hc : Text.hexValue? c = some third) (hd : Text.hexValue? d = some fourth) :
      CodeAt (a :: b :: c :: d :: rest)
        (first * 4096 + second * 256 + third * 16 + fourth) rest

/-- Inside of a string, a text starts with a character: the character itself, a backslash and its
letter, its code, or the codes of its two halves beyond U+FFFF. -/
inductive CharAt : List Char → Char → List Char → Prop where
  | plain {c : Char} (rest : List Char) (hquote : c ≠ '"') (hbackslash : c ≠ '\\')
      (hcontrol : ¬ c.toNat < 0x20) : CharAt (c :: rest) c rest
  | letter {letter c : Char} (rest : List Char) (h : (letter, c) ∈ letterEscapes) :
      CharAt ('\\' :: letter :: rest) c rest
  | code {c : Char} {text rest : List Char} (h : CodeAt text c.toNat rest) :
      CharAt ('\\' :: 'u' :: text) c rest
  | halves {c : Char} {high low : Nat} {text middle rest : List Char}
      (hfirst : CodeAt text (0xD800 + high) ('\\' :: 'u' :: middle))
      (hsecond : CodeAt middle (0xDC00 + low) rest) (hhigh : high < 0x400) (hlow : low < 0x400)
      (hc : c.toNat = 0x10000 + high * 0x400 + low) : CharAt ('\\' :: 'u' :: text) c rest

/-- A text starts with the characters of a string and its closing quote. -/
inductive CharsAt : List Char → List Char → List Char → Prop where
  | close (rest : List Char) : CharsAt ('"' :: rest) [] rest
  | char {text middle rest content : List Char} {c : Char} (hchar : CharAt text c middle)
      (hchars : CharsAt middle content rest) : CharsAt text (c :: content) rest

mutual

/-- A text starts with a value: a string in quotes, a truth value, the items of a list in brackets,
or the members of an object in braces. -/
inductive ValueAt : List Char → Value → List Char → Prop where
  | text {text rest : List Char} {content : String} (h : CharsAt text content.toList rest) :
      ValueAt ('"' :: text) (.text content) rest
  | flag (value : Bool) (rest : List Char) :
      ValueAt ((if value then "true" else "false").toList ++ rest) (.flag value) rest
  | list {text rest : List Char} {items : List Value} (h : ItemsAt true text items rest) :
      ValueAt ('[' :: text) (.list items) rest
  | object {text rest : List Char} {members : List (String × Value)}
      (h : MembersAt true text members rest) :
      ValueAt ('\x7b' :: text) (.object members) rest

/-- A text starts with the items of a list and its closing bracket. No item stands before them if
`first` holds. -/
inductive ItemsAt : Bool → List Char → List Value → List Char → Prop where
  | close {first : Bool} {text rest : List Char} (h : Spaced text (']' :: rest)) :
      ItemsAt first text [] rest
  | item {first : Bool} {text start middle rest : List Char} {item : Value} {items : List Value}
      (hdue : Due first text start) (hitem : ValueAt start item middle)
      (hitems : ItemsAt false middle items rest) : ItemsAt first text (item :: items) rest

/-- A text starts with the members of an object and its closing brace. No member stands before them
if `first` holds. -/
inductive MembersAt : Bool → List Char → List (String × Value) → List Char → Prop where
  | close {first : Bool} {text rest : List Char} (h : Spaced text ('\x7d' :: rest)) :
      MembersAt first text [] rest
  | member {first : Bool} {text afterQuote afterKey afterColon start middle rest : List Char}
      {key : String} {value : Value} {members : List (String × Value)}
      (hdue : Due first text ('"' :: afterQuote)) (hkey : CharsAt afterQuote key.toList afterKey)
      (hcolon : Spaced afterKey (':' :: afterColon)) (hspace : Spaced afterColon start)
      (hvalue : ValueAt start value middle) (hmembers : MembersAt false middle members rest) :
      MembersAt first text ((key, value) :: members) rest

end

/-- A text is a value with spaces around it. -/
def TextOf (text : List Char) (value : Value) : Prop :=
  ∃ start rest, Spaced text start ∧ ValueAt start value rest ∧ Spaced rest []

/-! ## Spaces -/

/-- No spaces are needed. -/
theorem spaced_refl (text : List Char) : Spaced text text :=
  ⟨[], by simp, rfl⟩

/-- A text is what skipping spaces leaves, after spaces. -/
theorem spaced_skipSpace (text : List Char) : Spaced text (skipSpace text) :=
  ⟨text.takeWhile isSpace, fun _ hc => List.mem_takeWhile_imp hc,
    List.takeWhile_append_dropWhile.symm⟩

/-- Spaces before a text are skipped. -/
theorem Spaced.skipSpace_eq {text rest : List Char} (h : Spaced text rest) :
    skipSpace text = skipSpace rest := by
  obtain ⟨spaces, hspaces, rfl⟩ := h
  exact List.dropWhile_append_of_pos hspaces

/-- Skipping spaces stops at the first character that is none. -/
theorem Spaced.skipSpace_eq_cons {text rest : List Char} {c : Char} (h : Spaced text (c :: rest))
    (hc : isSpace c = false) : skipSpace text = c :: rest := by
  rw [h.skipSpace_eq, skipSpace, List.dropWhile_cons_of_neg (by simp [hc])]

/-- Spaces after spaces are spaces. -/
theorem Spaced.trans {text middle rest : List Char} (h : Spaced text middle)
    (hmore : Spaced middle rest) : Spaced text rest := by
  obtain ⟨spaces, hspaces, rfl⟩ := h
  obtain ⟨others, hothers, rfl⟩ := hmore
  refine ⟨spaces ++ others, fun c hc => ?_, (List.append_assoc ..).symm⟩
  exact (List.mem_append.1 hc).elim (hspaces c) (hothers c)

/-- What is due can stand after more spaces. -/
theorem Due.trans {first : Bool} {text start rest : List Char} (h : Due first text start)
    (hmore : Spaced start rest) : Due first text rest := by
  cases first with
  | true => exact Spaced.trans h hmore
  | false =>
      obtain ⟨next, hcomma, hnext⟩ := h
      exact ⟨next, hcomma, hnext.trans hmore⟩

/-- Skipping spaces leaves a text whose first character is no space. -/
theorem skipSpace_eq_cons_iff {text rest : List Char} {c : Char} (hc : isSpace c = false) :
    skipSpace text = c :: rest ↔ Spaced text (c :: rest) := by
  refine ⟨fun h => ?_, fun h => h.skipSpace_eq_cons hc⟩
  rw [← h]
  exact spaced_skipSpace text

/-- Skipping spaces leaves nothing of spaces only. -/
theorem skipSpace_eq_nil_iff {text : List Char} : skipSpace text = [] ↔ Spaced text [] := by
  refine ⟨fun h => ?_, fun h => h.skipSpace_eq⟩
  rw [← h]
  exact spaced_skipSpace text

/-! ## Strings -/

/-- The letters after a backslash are those of the grammar. -/
theorem unescape?_eq_some_iff {letter c : Char} :
    unescape? letter = some c ↔ (letter, c) ∈ letterEscapes := by
  constructor
  · intro h
    unfold unescape? at h
    split at h <;> cases h <;> decide
  · intro h
    simp only [letterEscapes, List.mem_cons, Prod.mk.injEq, List.not_mem_nil, or_false] at h
    rcases h with ⟨rfl, rfl⟩ | ⟨rfl, rfl⟩ | ⟨rfl, rfl⟩ | ⟨rfl, rfl⟩ | ⟨rfl, rfl⟩ | ⟨rfl, rfl⟩ |
      ⟨rfl, rfl⟩ | ⟨rfl, rfl⟩ <;> rfl

/-- Four digits are read as their code. -/
theorem readCode_eq_ok_iff {text rest : List Char} {code : Nat} :
    readCode text = .ok (code, rest) ↔ CodeAt text code rest := by
  constructor
  · intro h
    unfold readCode at h
    split at h
    · next a b c d tail =>
      split at h
      · next first second third fourth ha hb hc hd =>
        simp only [Except.ok.injEq, Prod.mk.injEq] at h
        obtain ⟨rfl, rfl⟩ := h
        have hcode : ((first * 16 + second) * 16 + third) * 16 + fourth =
            first * 4096 + second * 256 + third * 16 + fourth := by
          omega
        rw [hcode]
        exact .digits tail ha hb hc hd
      · cases h
    · split at h <;> cases h
  · intro h
    cases h with
    | digits tail ha hb hc hd =>
        simp only [readCode, ha, hb, hc, hd, Except.ok.injEq, Prod.mk.injEq, and_true]
        omega

/-- A hexadecimal digit is below 16. -/
theorem hexValue?_lt {c : Char} {value : Nat} (h : Text.hexValue? c = some value) :
    value < 16 := by
  simp only [Text.hexValue?, Char.le_def, UInt32.le_iff_toNat_le] at h
  have h9 : '9'.val.toNat = 57 := rfl
  have hf : 'f'.val.toNat = 102 := rfl
  have hF : 'F'.val.toNat = 70 := rfl
  have hval : c.toNat = c.val.toNat := rfl
  split_ifs at h <;> cases h <;> omega

/-- A code has 16 bits. -/
theorem CodeAt.lt {text rest : List Char} {code : Nat} (h : CodeAt text code rest) :
    code < 0x10000 := by
  cases h with
  | digits tail ha hb hc hd =>
      have := hexValue?_lt ha
      have := hexValue?_lt hb
      have := hexValue?_lt hc
      have := hexValue?_lt hd
      omega

/-- A code point is the code of its character. -/
theorem toNat_ofNat_of_isValidChar {code : Nat} (h : code.isValidChar) :
    (Char.ofNat code).toNat = code := by
  rw [Char.ofNat, dif_pos h]
  rfl

/-- A given character is read where it stands. -/
theorem readMark_eq_ok_iff {mark : Char} {text rest : List Char} :
    readMark mark text = .ok rest ↔ text = mark :: rest := by
  cases text with
  | nil => simp [readMark]
  | cons c tail =>
      simp only [readMark]
      split_ifs with hc
      · simp [hc]
      · simp [hc]

/-- The second half of a character is read after its first half. -/
theorem readSecondHalf_eq_ok_iff {first : Nat} {text rest : List Char} {c : Char} :
    readSecondHalf first text = .ok (c, rest) ↔
      ∃ middle second, text = '\\' :: 'u' :: middle ∧ CodeAt middle second rest ∧
        isSecondHalf second = true ∧ joinHalves first second = c := by
  constructor
  · intro h
    obtain ⟨afterBackslash, hbackslash, hrest⟩ := bind_eq_ok_iff.1 h
    obtain ⟨afterLetter, hletter, hrest⟩ := bind_eq_ok_iff.1 hrest
    obtain ⟨⟨second, tail⟩, hcode, hhalf⟩ := bind_eq_ok_iff.1 hrest
    obtain rfl := readMark_eq_ok_iff.1 hbackslash
    obtain rfl := readMark_eq_ok_iff.1 hletter
    dsimp only at hhalf
    split_ifs at hhalf with hsecond
    simp only [Except.ok.injEq, Prod.mk.injEq] at hhalf
    obtain ⟨rfl, rfl⟩ := hhalf
    exact ⟨afterLetter, second, rfl, readCode_eq_ok_iff.1 hcode, hsecond, rfl⟩
  · rintro ⟨middle, second, rfl, hcode, hsecond, rfl⟩
    refine bind_eq_ok_iff.2 ⟨_, readMark_eq_ok_iff.2 rfl, ?_⟩
    refine bind_eq_ok_iff.2 ⟨_, readMark_eq_ok_iff.2 rfl, ?_⟩
    refine bind_eq_ok_iff.2 ⟨_, readCode_eq_ok_iff.2 hcode, ?_⟩
    exact if_pos hsecond

/-- An escape is read as the character that is spelled with it. -/
theorem readEscape_eq_ok_iff {text rest : List Char} {c : Char} :
    readEscape text = .ok (c, rest) ↔ CharAt ('\\' :: text) c rest := by
  constructor
  · intro h
    unfold readEscape at h
    split at h
    · cases h
    · next tail =>
      obtain ⟨⟨code, afterCode⟩, hcode, h⟩ := bind_eq_ok_iff.1 h
      have hcodeAt := readCode_eq_ok_iff.1 hcode
      dsimp only at h
      split_ifs at h with hsecond hfirst
      · -- The code is the first half of a character.
        obtain ⟨middle, second, rfl, hmiddle, hhalf, rfl⟩ := readSecondHalf_eq_ok_iff.1 h
        simp only [isFirstHalf, Bool.and_eq_true, decide_eq_true_eq] at hfirst
        simp only [isSecondHalf, Bool.and_eq_true, decide_eq_true_eq] at hhalf
        obtain ⟨high, rfl⟩ := Nat.exists_eq_add_of_le hfirst.1
        obtain ⟨low, rfl⟩ := Nat.exists_eq_add_of_le hhalf.1
        refine .halves hcodeAt hmiddle (by omega) (by omega) ?_
        rw [joinHalves, toNat_ofNat_of_isValidChar]
        · omega
        · right
          omega
      · cases h
        have hlt := hcodeAt.lt
        simp only [isFirstHalf, Bool.and_eq_true, decide_eq_true_eq] at hfirst
        simp only [isSecondHalf, Bool.and_eq_true, decide_eq_true_eq] at hsecond
        have hvalid : code.isValidChar := by
          simp only [Nat.isValidChar]
          omega
        refine .code ?_
        rw [toNat_ofNat_of_isValidChar hvalid]
        exact hcodeAt
    · next letter tail _ =>
      split at h
      · next found hfound =>
        cases h
        exact .letter rest (unescape?_eq_some_iff.1 hfound)
      · cases h
  · intro h
    cases h with
    | plain tail hquote hbackslash hcontrol => exact absurd rfl hbackslash
    | @letter letter c tail hmem =>
        have hletter := unescape?_eq_some_iff.2 hmem
        have hcode : letter ≠ 'u' := by
          rintro rfl
          cases hletter
        rw [readEscape]
        · rw [hletter]
        · exact hcode
    | code hcode =>
        have hvalid : c.toNat.isValidChar := c.valid
        have hfirst : isFirstHalf c.toNat = false := by
          simp only [isFirstHalf, Bool.and_eq_false_iff, decide_eq_false_iff_not]
          omega
        have hsecond : isSecondHalf c.toNat = false := by
          simp only [isSecondHalf, Bool.and_eq_false_iff, decide_eq_false_iff_not]
          omega
        refine bind_eq_ok_iff.2 ⟨_, readCode_eq_ok_iff.2 hcode, ?_⟩
        simp [hfirst, hsecond]
    | @halves _ high low text middle _ hfirst hsecond hhigh hlow hc =>
        have hnot : isSecondHalf (0xD800 + high) = false := by
          simp only [isSecondHalf, Bool.and_eq_false_iff, decide_eq_false_iff_not]
          omega
        have hhalf : isFirstHalf (0xD800 + high) = true := by
          simp only [isFirstHalf, Bool.and_eq_true, decide_eq_true_eq]
          omega
        have hother : isSecondHalf (0xDC00 + low) = true := by
          simp only [isSecondHalf, Bool.and_eq_true, decide_eq_true_eq]
          omega
        have hjoin : joinHalves (0xD800 + high) (0xDC00 + low) = c := by
          rw [joinHalves, Nat.add_sub_cancel_left, Nat.add_sub_cancel_left, ← hc, Char.ofNat_toNat]
        refine bind_eq_ok_iff.2 ⟨_, readCode_eq_ok_iff.2 hfirst, ?_⟩
        simp only [hnot, hhalf]
        exact readSecondHalf_eq_ok_iff.2 ⟨middle, _, rfl, hsecond, hother, hjoin⟩

/-- A string goes on after each of its characters. -/
theorem CharAt.readChars_eq {text rest : List Char} {c : Char} (h : CharAt text c rest) :
    readChars text = (readChars rest).map fun (content, after) => (c :: content, after) := by
  cases h with
  | plain tail hquote hbackslash hcontrol => exact readChars_plain hquote hbackslash hcontrol rest
  | letter tail hmem => exact readChars_escape (readEscape_eq_ok_iff.2 (.letter rest hmem))
  | code hcode => exact readChars_escape (readEscape_eq_ok_iff.2 (.code hcode))
  | halves hfirst hsecond hhigh hlow hc =>
      exact readChars_escape (readEscape_eq_ok_iff.2 (.halves hfirst hsecond hhigh hlow hc))

/-- The characters of a string are read as they are spelled. -/
theorem readChars_eq_ok_iff {text rest content : List Char} :
    readChars text = .ok (content, rest) ↔ CharsAt text content rest := by
  constructor
  · intro h
    fun_induction readChars text generalizing content with
    | case1 => cases h
    | case2 tail =>
        cases h
        exact .close rest
    | case3 tail fault hescape => cases h
    | case4 tail c afterEscape hescape ih =>
        obtain ⟨⟨chars, left⟩, hmore, hsame⟩ := map_eq_ok_iff.1 h
        cases hsame
        exact .char (readEscape_eq_ok_iff.1 hescape) (ih hmore)
    | case5 => cases h
    | case6 c tail hquote hbackslash hcontrol ih =>
        obtain ⟨⟨chars, left⟩, hmore, hsame⟩ := map_eq_ok_iff.1 h
        cases hsame
        exact .char (.plain tail hquote hbackslash hcontrol) (ih hmore)
  · intro h
    induction h with
    | close rest => rw [readChars]
    | char hchar hchars ih =>
        rw [hchar.readChars_eq, ih]
        rfl

/-- A string is read as it is spelled. -/
theorem readString_eq_ok_iff {text rest : List Char} {content : String} :
    readString text = .ok (content, rest) ↔ CharsAt text content.toList rest := by
  rw [readString, map_eq_ok_iff]
  constructor
  · rintro ⟨⟨chars, left⟩, hchars, hsame⟩
    cases hsame
    rw [String.toList_ofList]
    exact readChars_eq_ok_iff.1 hchars
  · intro h
    exact ⟨(content.toList, rest), readChars_eq_ok_iff.2 h, by simp⟩

/-! ## Values -/

/-- A value starts with a character that is neither a space nor the end of a list. -/
theorem ValueAt.exists_cons {text rest : List Char} {value : Value} (h : ValueAt text value rest) :
    ∃ c tail, text = c :: tail ∧ isSpace c = false ∧ c ≠ ']' := by
  cases h with
  | text hchars => exact ⟨_, _, rfl, rfl, by decide⟩
  | flag value rest =>
      cases value with
      | false => exact ⟨_, _, rfl, rfl, by decide⟩
      | true => exact ⟨_, _, rfl, rfl, by decide⟩
  | list hitems => exact ⟨_, _, rfl, rfl, by decide⟩
  | object hmembers => exact ⟨_, _, rfl, rfl, by decide⟩

/-- A word is read where it stands. -/
theorem readWord_eq_ok_iff {letters text rest : List Char} :
    readWord letters text = .ok rest ↔ text = letters ++ rest := by
  induction letters generalizing text with
  | nil => simp [readWord]
  | cons letter letters ih =>
      cases text with
      | nil => simp [readWord]
      | cons c tail =>
          simp only [readWord, List.cons_append, List.cons.injEq]
          split_ifs with hc
          · simp [hc, ih]
          · simp [hc]

/-- A truth value is read where one stands after spaces. -/
theorem readFlag_eq_ok_iff {text rest : List Char} {value : Bool} :
    readFlag text = .ok (value, rest) ↔
      ∃ start, Spaced text start ∧ ValueAt start (.flag value) rest := by
  constructor
  · intro h
    have hspace := spaced_skipSpace text
    refine ⟨skipSpace text, hspace, ?_⟩
    unfold readFlag at h
    split at h
    · next tail hskip =>
      obtain ⟨left, hword, hsame⟩ := map_eq_ok_iff.1 h
      cases hsame
      rw [hskip, readWord_eq_ok_iff.1 hword]
      exact .flag true rest
    · next tail hskip =>
      obtain ⟨left, hword, hsame⟩ := map_eq_ok_iff.1 h
      cases hsame
      rw [hskip, readWord_eq_ok_iff.1 hword]
      exact .flag false rest
    · cases h
  · rintro ⟨start, hspace, hvalue⟩
    cases hvalue with
    | flag value rest =>
        cases value with
        | false =>
            have hskip : skipSpace text = 'f' :: ("alse".toList ++ rest) :=
              hspace.skipSpace_eq_cons rfl
            rw [readFlag, hskip]
            exact map_eq_ok_iff.2 ⟨rest, readWord_eq_ok_iff.2 rfl, rfl⟩
        | true =>
            have hskip : skipSpace text = 't' :: ("rue".toList ++ rest) :=
              hspace.skipSpace_eq_cons rfl
            rw [readFlag, hskip]
            exact map_eq_ok_iff.2 ⟨rest, readWord_eq_ok_iff.2 rfl, rfl⟩

/-- A string is read where one stands after spaces. -/
theorem readText_eq_ok_iff {text rest : List Char} {content : String} :
    readText text = .ok (content, rest) ↔
      ∃ start, Spaced text start ∧ ValueAt start (.text content) rest := by
  constructor
  · intro h
    unfold readText at h
    split at h
    · next tail hskip =>
      exact ⟨_, (skipSpace_eq_cons_iff rfl).1 hskip, .text (readString_eq_ok_iff.1 h)⟩
    · cases h
  · rintro ⟨start, hspace, hvalue⟩
    cases hvalue with
    | text hchars =>
        rw [readText, hspace.skipSpace_eq_cons rfl]
        exact readString_eq_ok_iff.2 hchars

/-- There is no further item where the list is closed. -/
theorem nextItem_eq_ok_false_iff {first : Bool} {text start : List Char} :
    nextItem first text = .ok (false, start) ↔
      ∃ rest, start = ']' :: rest ∧ Spaced text start := by
  constructor
  · intro h
    unfold nextItem at h
    split at h
    · cases h
    · next tail hskip =>
      cases h
      exact ⟨tail, rfl, (skipSpace_eq_cons_iff rfl).1 hskip⟩
    · split at h
      · cases h
      · split at h
        · split at h <;> cases h
        · cases h
  · rintro ⟨rest, rfl, hspace⟩
    rw [nextItem, hspace.skipSpace_eq_cons rfl]
    rfl

/-- A further item is due where the reader looks for it. -/
theorem due_of_nextItem {first : Bool} {text start : List Char}
    (h : nextItem first text = .ok (true, start)) : Due first text start := by
  unfold nextItem at h
  split at h
  · cases h
  · cases h
  · next c tail _ hskip =>
    have hspace := spaced_skipSpace text
    rw [hskip] at hspace
    split at h
    · next hfirst =>
      cases h
      rw [Due, if_pos hfirst]
      exact hspace
    · next hfirst =>
      split at h
      · next hcomma =>
        subst hcomma
        rw [Due, if_neg hfirst]
        refine ⟨tail, hspace, ?_⟩
        split at h
        · cases h
        · cases h
        · next hafter =>
          cases h
          exact spaced_skipSpace tail
      · cases h

/-- A value that is due is found as a further item. -/
theorem Due.nextItem_eq {first : Bool} {text start rest : List Char} {value : Value}
    (h : Due first text start) (hvalue : ValueAt start value rest) :
    nextItem first text = .ok (true, start) := by
  obtain ⟨c, tail, rfl, hspace, hclose⟩ := hvalue.exists_cons
  cases first with
  | true =>
      have hskip : skipSpace text = c :: tail := Spaced.skipSpace_eq_cons h hspace
      rw [nextItem, hskip]
      split
      · next heq => cases heq
      · next heq =>
        cases heq
        exact absurd rfl hclose
      · next heq =>
        cases heq
        rfl
  | false =>
      obtain ⟨next, hcomma, hnext⟩ := h
      simp [nextItem, hcomma.skipSpace_eq_cons rfl, hnext.skipSpace_eq_cons hspace, hclose]

/-- A list without further items has no further strings. -/
theorem readTexts_of_nextItem_false {first : Bool} {text start : List Char}
    (h : nextItem first text = .ok (false, start)) :
    readTexts first text = .ok ([], start.tail) := by
  rw [readTexts]
  split
  · next hfound =>
    rw [h] at hfound
    cases hfound
  · next hfound =>
    rw [h] at hfound
    cases hfound
    rfl
  · next hfound =>
    rw [h] at hfound
    cases hfound

/-- A further string is the first one of those that are read. -/
theorem readTexts_of_readText {first : Bool} {text start rest : List Char} {item : String}
    (hnext : nextItem first text = .ok (true, start)) (hitem : readText start = .ok (item, rest)) :
    readTexts first text =
      (readTexts false rest).map fun (items, after) => (item :: items, after) := by
  rw [readTexts]
  split
  · next hfound =>
    rw [hnext] at hfound
    cases hfound
  · next hfound =>
    rw [hnext] at hfound
    cases hfound
  · next hfound =>
    rw [hnext] at hfound
    cases hfound
    split
    · next hfault =>
      rw [hitem] at hfault
      cases hfault
    · next hstring =>
      rw [hitem] at hstring
      cases hstring
      rfl

/-- The strings of a list are read where a list of strings stands. -/
theorem readTexts_eq_ok_iff {first : Bool} {text rest : List Char} {items : List String} :
    readTexts first text = .ok (items, rest) ↔
      ItemsAt first text (items.map .text) rest := by
  constructor
  · intro h
    fun_induction readTexts first text generalizing items with
    | case1 first text fault hnext => cases h
    | case2 first text start hnext =>
        obtain ⟨tail, rfl, hspace⟩ := nextItem_eq_ok_false_iff.1 hnext
        cases h
        exact .close hspace
    | case3 first text start hnext fault hitem => cases h
    | case4 first text start hnext item middle hitem ih =>
        obtain ⟨⟨others, left⟩, hmore, hsame⟩ := map_eq_ok_iff.1 h
        cases hsame
        obtain ⟨valueStart, hspace, hvalue⟩ := readText_eq_ok_iff.1 hitem
        exact .item ((due_of_nextItem hnext).trans hspace) hvalue (ih hmore)
  · intro h
    induction items generalizing first text with
    | nil =>
        cases h with
        | close hspace =>
            rw [readTexts_of_nextItem_false (nextItem_eq_ok_false_iff.2 ⟨rest, rfl, hspace⟩)]
            rfl
    | cons content items ih =>
        cases h with
        | item hdue hitem hitems =>
            have hread := readText_eq_ok_iff.2 ⟨_, spaced_refl _, hitem⟩
            rw [readTexts_of_readText (hdue.nextItem_eq hitem) hread, ih hitems]
            rfl

/-- A list of strings is read where one stands after spaces. -/
theorem readTextList_eq_ok_iff {text rest : List Char} {items : List String} :
    readTextList text = .ok (items, rest) ↔
      ∃ start, Spaced text start ∧ ValueAt start (.list (items.map .text)) rest := by
  constructor
  · intro h
    unfold readTextList at h
    split at h
    · next tail hskip =>
      exact ⟨_, (skipSpace_eq_cons_iff rfl).1 hskip, .list (readTexts_eq_ok_iff.1 h)⟩
    · cases h
  · rintro ⟨start, hspace, hvalue⟩
    cases hvalue with
    | list hitems =>
        rw [readTextList, hspace.skipSpace_eq_cons rfl]
        exact readTexts_eq_ok_iff.2 hitems

end SchemaCompiler.Json
