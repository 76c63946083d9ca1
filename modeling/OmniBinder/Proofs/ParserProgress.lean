/-
Module: OmniBinder.Proofs.ParserProgress
Purpose: Every loop of the parser comes to its end.
Trusted boundary: none
Main exports: ParserState.left, readSyntax_eq
-/
import OmniBinder.Idl.Parser

namespace OmniBinder.Idl

open OmniBinder List ParserState

variable {c : UInt8}

variable {turns turns' : Nat}

variable {type : TokenType}

/-! ### The lexer -/

theorem skipFrom_length (mode : SkipMode) (position : Position) (rest : Bytes) :
    (skipFrom mode position rest).rest.length ≤ rest.length := by
  induction rest generalizing mode position with
  | nil => cases mode <;> exact Nat.le_refl _
  | cons c rest ih =>
    have hrest (mode : SkipMode) (position : Position) :
        (skipFrom mode position rest).rest.length ≤ (c :: rest).length :=
      Nat.le_succ_of_le (ih mode position)
    cases mode with
    | code =>
      rw [skipFrom]
      split_ifs
      · exact hrest _ _
      · exact hrest _ _
      · exact hrest _ _
      · exact Nat.le_refl _
    | lineComment =>
      rw [skipFrom]
      split_ifs
      · exact hrest _ _
      · exact hrest _ _
    | blockOpening => exact hrest _ _
    | blockComment =>
      rw [skipFrom]
      split_ifs
      · exact hrest _ _
      · exact hrest _ _
    | blockClosing => exact hrest _ _

theorem length_dropWhile_lt {p : UInt8 → Bool} {text rest : Bytes} (h : p c = true)
    (htext : text = c :: rest) : (text.dropWhile p).length < text.length := by
  rw [htext, dropWhile_cons_of_pos h]
  exact Nat.lt_succ_of_le (dropWhile_sublist p).length_le

theorem readString_length {lexer : Lexer} {tail : Bytes} (h : lexer.rest = c :: tail) :
    (readString lexer).2.rest.length < lexer.rest.length := by
  have hbody : (tail.dropWhile fun c => c ≠ 0x22 && !isUnsafe c).length ≤ tail.length :=
    (dropWhile_sublist _).length_le
  rw [h, length_cons, Nat.lt_succ_iff]
  refine Nat.le_trans ?_ hbody
  simp only [readString, h, drop_succ_cons, drop_zero]
  split
  · exact Nat.zero_le _
  next hrest =>
    rw [hrest]
    split_ifs
    · exact Nat.le_succ _
    · exact Nat.le_refl _

theorem readPunctuation_length {lexer : Lexer} {tail : Bytes} (h : lexer.rest = c :: tail) :
    (readPunctuation c lexer).2.rest.length < lexer.rest.length := by
  unfold readPunctuation
  split
  · simp [h]
  · simp [h]

/-- A token takes at least one character, unless it is the end of the source. -/
theorem nextToken_length (lexer : Lexer) : lexer.nextToken.2.rest.length ≤ lexer.rest.length ∧
      (lexer.nextToken.1.type ≠ .eof → lexer.nextToken.2.rest.length < lexer.rest.length) := by
  have hskip : (skipWhitespaceAndComments lexer).rest.length ≤ lexer.rest.length :=
    skipFrom_length .code lexer.position lexer.rest
  unfold Lexer.nextToken
  dsimp only
  split
  · exact ⟨hskip, fun h => absurd rfl h⟩
  next c tail hrest =>
    have hless : ∀ {token : Token × Lexer},
        token.2.rest.length < (skipWhitespaceAndComments lexer).rest.length →
          token.2.rest.length ≤ lexer.rest.length ∧
            (token.1.type ≠ .eof → token.2.rest.length < lexer.rest.length) :=
      fun h => ⟨Nat.le_trans (Nat.le_of_lt h) hskip, fun _ => Nat.lt_of_lt_of_le h hskip⟩
    split_ifs with hword hdigit hquote
    · refine hless ?_
      have hchar : isIdentifierChar c = true := by
        simp only [isAlpha, Bool.or_eq_true, Bool.and_eq_true, decide_eq_true_eq] at hword
        simp only [isIdentifierChar, Bool.or_eq_true, Bool.and_eq_true, decide_eq_true_eq, beq_iff_eq]
        tauto
      exact length_dropWhile_lt hchar hrest
    · exact hless (length_dropWhile_lt hdigit hrest)
    · exact hless (readString_length hrest)
    · exact hless (readPunctuation_length hrest)

/-! ### What is left to read -/

/-- How far a parser can still come: nothing after an error, and otherwise the current token and the
    rest of the source. -/
def ParserState.left (s : ParserState) : Nat :=
  if s.hasError then 0 else if s.isAt .eof then 1 else s.lexer.rest.length + 2

/-- One state after another, with a token read in between or an error. -/
def Consumes (s s' : ParserState) : Prop := s'.left ≤ s.left - 1

namespace ParserState

variable (s : ParserState) {s : ParserState}

theorem left_eq_zero : s.left = 0 ↔ s.hasError = true := by
  unfold left
  split_ifs with herror heof
  · simp [herror]
  · simp [herror]
  · simp [herror]

theorem isAt_eof_of_isAt (h : s.isAt type = true)
    (htype : type ≠ .eof) : s.isAt .eof = false := by
  simp only [isAt, decide_eq_true_eq] at h
  simp [isAt, h, htype]

/-- Reading a token, from one that is not the end of the file. -/
theorem consumes_advance (h : s.isAt .eof = false) : Consumes s s.advance := by
  have hlength := nextToken_length s.lexer
  have herror : s.advance.hasError = s.hasError := rfl
  unfold Consumes left
  rw [herror, h, if_neg Bool.false_ne_true]
  split_ifs with hfailed heof
  · exact Nat.le_refl _
  · omega
  · have hless := hlength.2 fun htype => heof (decide_eq_true htype)
    simp only [advance]
    omega

theorem consumes_expect (htype : type ≠ .eof) : Consumes s (s.expect type).2 := by
  unfold expect
  split_ifs with hat
  · exact consumes_advance (isAt_eof_of_isAt hat htype)
  · exact Nat.zero_le _

end ParserState

namespace Consumes

variable {s s' s'' : ParserState}

theorem le (h : Consumes s s') : s'.left ≤ s.left := Nat.le_trans h (Nat.sub_le _ _)

theorem trans (h : Consumes s s') (h' : Consumes s' s'') : Consumes s s'' := by
  unfold Consumes at h h' ⊢
  omega

theorem advance (h : Consumes s s') (hat : s'.isAt type = true)
    (htype : type ≠ .eof) : Consumes s s'.advance :=
  h.trans (consumes_advance (isAt_eof_of_isAt hat htype))

theorem expect (h : Consumes s s') (htype : type ≠ .eof) :
    Consumes s (s'.expect type).2 :=
  h.trans (s'.consumes_expect htype)

/-- The second part may also stand still. -/
theorem trans_le (h : Consumes s s') (h' : s''.left ≤ s'.left) : Consumes s s'' := Nat.le_trans h' h

theorem lt (h : Consumes s s') (herror : s.hasError = false) : s'.left < s.left := by
  have hleft : s.left ≠ 0 := by
    rw [Ne, left_eq_zero, herror]
    exact Bool.false_ne_true
  unfold Consumes at h
  omega

theorem of_error (h : s'.left = 0) : Consumes s s' := by
  unfold Consumes
  omega

end Consumes

/-! ### Types, fields and methods -/

theorem parseCustomType_consumes (h : s.isAt .eof = false) :
    Consumes s (parseCustomType s).2 := by
  have hfirst := consumes_advance h
  unfold parseCustomType
  dsimp only
  split_ifs with hdot hname
  · exact (hfirst.advance hdot (by decide)).advance hname (by decide)
  · exact .of_error rfl
  · exact hfirst

theorem parseType_consumes : ∀ (nesting : Nat) (s : ParserState), Consumes s (parseType nesting s).2 := by
  intro nesting
  induction nesting with
  | zero => exact fun s => .of_error rfl
  | succ nesting ih =>
    intro s
    rw [parseType]
    split
    · next type htype =>
        refine consumes_advance ?_
        refine Bool.eq_false_iff.mpr fun heof => ?_
        simp only [isAt, decide_eq_true_eq] at heof
        rw [heof] at htype
        cases htype
    · split_ifs with harray hidentifier
      · have hopening := (consumes_advance (isAt_eof_of_isAt harray (by decide))).trans
          (s.advance.consumes_expect (show TokenType.langle ≠ .eof by decide))
        have helement := hopening.trans (ih (s.advance.expect .langle).2)
        dsimp only
        split_ifs
        · exact helement
        · exact helement.expect (by decide)
      · exact parseCustomType_consumes (isAt_eof_of_isAt hidentifier (by decide))
      · exact .of_error rfl
      · exact .of_error rfl

theorem parseField_consumes (s : ParserState) : Consumes s (parseField s).2 := by
  have htype := parseType_consumes idlcMaxTypeNesting s
  unfold parseField
  dsimp only
  split
  · exact htype
  · exact (htype.expect (by decide)).expect (by decide)

theorem finishMethod_consumes (name : Ident) (returnType : TypeRef) (param : Option ParamDef)
    (s : ParserState) : Consumes s (finishMethod name returnType param s).2 :=
  (s.consumes_expect (by decide)).expect (by decide)

theorem parseMethod_consumes (s : ParserState) : Consumes s (parseMethod s).2 := by
  have htype := parseType_consumes idlcMaxTypeNesting s
  unfold parseMethod
  dsimp only
  split_ifs with herror hclosing hparam
  · exact htype
  · exact ((htype.expect (by decide)).expect (by decide)).trans (finishMethod_consumes _ _ _ _)
  · exact ((htype.expect (by decide)).expect (by decide)).trans (parseType_consumes _ _)
  · exact ((((htype.expect (by decide)).expect (by decide)).trans (parseType_consumes _ _)).expect
      (by decide)).trans (finishMethod_consumes _ _ _ _)

theorem addField_consumes (x : List FieldDef × ParserState) : Consumes x.2 (addField x).2 :=
  parseField_consumes x.2

theorem addEntry_consumes (x : ServiceDef × ParserState) : Consumes x.2 (addEntry x).2 := by
  unfold addEntry
  split_ifs with hpublishes
  · exact ((consumes_advance (isAt_eof_of_isAt hpublishes (by decide))).expect
      (by decide)).expect (by decide)
  · exact parseMethod_consumes x.2

/-! ### Loops -/

section
variable {α : Type} {body : α × ParserState → α × ParserState}
  (hbody : ∀ x, Consumes x.2 (body x).2) {turns turns' : Nat} {x : α × ParserState}
include hbody

theorem bracesLoop_le : (repeatWhile (fun x => x.2.inBraces) body turns x).2.left ≤ x.2.left := by
  refine repeatWhile_invariant (P := fun y : α × ParserState => y.2.left ≤ x.2.left)
    (fun y _ hy => ?_) turns (Nat.le_refl _)
  exact Nat.le_trans (hbody y).le hy

theorem bracesLoop_bound (h : x.2.left ≤ turns) (h' : x.2.left ≤ turns') :
    repeatWhile (fun x => x.2.inBraces) body turns x =
      repeatWhile (fun x => x.2.inBraces) body turns' x := by
  refine repeatWhile_bound (m := fun x => x.2.left) (fun x hx => ?_) h h'
  simp only [inBraces, Bool.and_eq_true, Bool.not_eq_true'] at hx
  exact (hbody x).lt hx.2

end

theorem parseFields_le (turns : Nat) (s : ParserState) : (parseFields turns s).2.left ≤ s.left :=
  bracesLoop_le addField_consumes

theorem parseFields_bound (h : s.left ≤ turns)
    (h' : s.left ≤ turns') : parseFields turns s = parseFields turns' s :=
  bracesLoop_bound addField_consumes h h'

theorem parseEntries_le (turns : Nat) (name : Ident) (s : ParserState) :
    (parseEntries turns name s).2.left ≤ s.left :=
  bracesLoop_le addEntry_consumes

theorem parseEntries_bound {name : Ident} (h : s.left ≤ turns)
    (h' : s.left ≤ turns') : parseEntries turns name s = parseEntries turns' name s :=
  bracesLoop_bound addEntry_consumes h h'

/-- The name and the opening brace of a declaration. -/
theorem opening_consumes (htype : type ≠ .eof) :
    Consumes s (((s.expect type).2.expect .identifier).2.expect .lbrace).2 :=
  ((s.consumes_expect htype).expect (by decide)).expect (by decide)

section
variable (turns : Nat) (s : ParserState)

theorem parseStruct_consumes : Consumes s (parseStruct turns s).2 :=
  ((opening_consumes (by decide)).trans_le (parseFields_le turns _)).expect (by decide)

theorem parseTopic_consumes : Consumes s (parseTopic turns s).2 :=
  ((opening_consumes (by decide)).trans_le (parseFields_le turns _)).expect (by decide)

theorem parseService_consumes : Consumes s (parseService turns s).2 :=
  ((opening_consumes (by decide)).trans_le (parseEntries_le turns _ _)).expect (by decide)

theorem parseStatement_consumes : Consumes s (parseStatement turns s).2 := by
  unfold parseStatement
  split
  · exact ((s.consumes_expect (by decide)).expect (by decide)).expect (by decide)
  · exact ((s.consumes_expect (by decide)).expect (by decide)).expect (by decide)
  · exact parseStruct_consumes turns s
  · exact parseTopic_consumes turns s
  · exact parseService_consumes turns s
  · exact .of_error rfl

end

/-- The inner loops of a statement have enough turns if there are as many as is left to read. -/
theorem parseStatement_bound (h : s.left ≤ turns)
    (h' : s.left ≤ turns') : parseStatement turns s = parseStatement turns' s := by
  have hopening : ∀ {type : TokenType}, type ≠ .eof →
      (((s.expect type).2.expect .identifier).2.expect .lbrace).2.left ≤ s.left :=
    fun htype => (opening_consumes htype).le
  have hfields : ∀ {type : TokenType}, type ≠ .eof →
      parseFields turns (((s.expect type).2.expect .identifier).2.expect .lbrace).2 =
        parseFields turns' (((s.expect type).2.expect .identifier).2.expect .lbrace).2 :=
    fun htype => parseFields_bound (Nat.le_trans (hopening htype) h) (Nat.le_trans (hopening htype) h')
  have hstruct : parseStruct turns s = parseStruct turns' s := by
    simp only [parseStruct, hfields (show TokenType.struct ≠ .eof by decide)]
  have htopic : parseTopic turns s = parseTopic turns' s := by
    simp only [parseTopic, hfields (show TokenType.topic ≠ .eof by decide)]
  have hservice : parseService turns s = parseService turns' s := by
    have hleft := hopening (show TokenType.service ≠ .eof by decide)
    simp only [parseService, parseEntries_bound (Nat.le_trans hleft h) (Nat.le_trans hleft h')]
  unfold parseStatement
  rw [hstruct, htopic, hservice]

theorem addStatement_consumes (turns : Nat) (x : List Statement × ParserState) :
    Consumes x.2 (addStatement turns x).2 :=
  parseStatement_consumes turns x.2

theorem left_start (source : Bytes) : (start source).left ≤ source.length + 1 := by
  have hlength := nextToken_length (Lexer.start source)
  unfold left
  split_ifs with herror heof
  · exact Nat.zero_le _
  · exact Nat.le_add_left 1 _
  · have hless := hlength.2 fun htype => heof (decide_eq_true htype)
    exact Nat.succ_le_succ hless

/-- A source is read in the same way with any bound on the turns that is larger than the source. -/
theorem readSyntax_eq {source : Bytes} {turns : Nat} (h : source.length < turns) :
    readSyntax turns source = syntaxOf source := by
  have hleft := left_start source
  -- the statements are read alike wherever the loop gets to
  have hsame : repeatWhile (fun x => x.2.inFile) (addStatement turns) turns
        ([], start source) =
      repeatWhile (fun x => x.2.inFile) (addStatement (source.length + 1)) turns
        ([], start source) := by
    refine repeatWhile_congr (P := fun x : List Statement × ParserState =>
      x.2.left ≤ source.length + 1) (fun x _ hx => ?_) (fun x _ hx => ?_) turns hleft
    · simp only [addStatement, parseStatement_bound (Nat.le_trans hx h) hx]
    · exact Nat.le_trans (addStatement_consumes turns x).le hx
  have hbound : repeatWhile (fun x => x.2.inFile) (addStatement (source.length + 1)) turns
        ([], start source) =
      repeatWhile (fun x => x.2.inFile) (addStatement (source.length + 1)) (source.length + 1)
        ([], start source) := by
    refine repeatWhile_bound (m := fun x => x.2.left) (fun x hx => ?_) (Nat.le_trans hleft h) hleft
    simp only [inFile, Bool.and_eq_true, Bool.not_eq_true'] at hx
    exact (addStatement_consumes _ x).lt hx.2
  simp only [readSyntax, syntaxOf, hsame, hbound]

end OmniBinder.Idl
