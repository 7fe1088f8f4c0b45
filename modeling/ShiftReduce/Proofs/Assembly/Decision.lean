import ShiftReduce.Proofs.Assembly.LineSentences
import ShiftReduce.Proofs.Assembly.WrittenForm

/-!
# Which lines are assembled

Of each line the assembler decides whether it is an instruction in one of the forms, and if not, where it
ceases to be the beginning of one. Up to there nothing else counts: a character that begins no piece is
reported only if the lexemes before it could go on (`LongestHead`), and the operands are looked at only
when the whole line is in a form.
-/

namespace ShiftReduce.Assembly

/-! ## Forms of lexemes -/

/-- The lexemes are those of some form. -/
def HasForm (lexemes : List Lexeme) : Prop :=
  ∃ f ∈ Form.all, lexemes.map Lexeme.terminal = f.terminals

/-- The lexemes are the first ones of some form. -/
def BeginsForm (lexemes : List Lexeme) : Prop :=
  ∃ f ∈ Form.all, lexemes.map Lexeme.terminal <+: f.terminals

/-- The longest beginning of the items that is without errors and the beginning of some form. -/
structure LongestHead (items : List (Except LexError Lexeme)) (head : List Lexeme)
    (rest : List (Except LexError Lexeme)) : Prop where
  split : items = head.map .ok ++ rest
  begins : BeginsForm head
  longest : ∀ head' rest', items = head'.map .ok ++ rest' → BeginsForm head' →
    head'.length ≤ head.length

theorem ok_injective : Function.Injective (Except.ok : Lexeme → Except LexError Lexeme) :=
  fun _ _ => Except.ok.inj

theorem BeginsForm.of_prefix {lexemes lexemes' : List Lexeme} (h : BeginsForm lexemes)
    (part : lexemes' <+: lexemes) : BeginsForm lexemes' := by
  obtain ⟨f, hf, begins⟩ := h
  exact ⟨f, hf, (part.map Lexeme.terminal).trans begins⟩

/-- A beginning is the longest if it cannot go on with the next lexeme, where one is next. -/
theorem longestHead_of_wrong {items rest : List (Except LexError Lexeme)} {head : List Lexeme}
    (split : items = head.map .ok ++ rest) (begins : BeginsForm head)
    (wrong : ∀ l ∈ rest.head?.bind Except.toOption, ¬ BeginsForm (head ++ [l])) :
    LongestHead items head rest := by
  refine ⟨split, begins, fun head' rest' split' begins' => ?_⟩
  rcases List.append_eq_append_iff.mp (split.symm.trans split') with
    ⟨mid, hhead', hrest⟩ | ⟨mid, hhead, -⟩
  · rcases mid with _ | ⟨item, mid⟩
    · rw [List.append_nil] at hhead'
      rw [List.map_injective_iff.mpr ok_injective hhead']
    · -- the other beginning goes on with the next item
      exfalso
      obtain ⟨front, behind, rfl, hfront, hbehind⟩ := List.map_eq_append_iff.mp hhead'
      obtain ⟨l, behind, rfl, rfl, -⟩ := List.map_eq_cons_iff.mp hbehind
      obtain rfl := List.map_injective_iff.mpr ok_injective hfront
      refine wrong l (by rw [hrest]; rfl) (begins'.of_prefix ⟨behind, ?_⟩)
      rw [List.append_assoc, List.singleton_append]
  · have hlength := congrArg List.length hhead
    rw [List.length_append, List.length_map, List.length_map] at hlength
    omega

/-- A lexeme as the parser sees it. -/
def Lexeme.token (l : Lexeme) : Token SymbolId := ⟨l.terminal.symbol, l.text⟩

theorem symbols_tokens (lexemes : List Lexeme) :
    (lexemes.map Lexeme.token).map Token.symbol =
      (lexemes.map Lexeme.terminal).map Terminal.symbol := by
  rw [List.map_map, List.map_map]
  rfl

theorem beginsForm_iff {lexemes : List Lexeme} :
    BeginsForm lexemes ↔ lineGrammar.IsViable ((lexemes.map Lexeme.token).map Token.symbol) := by
  rw [isViable_iff, symbols_tokens]
  refine exists_congr fun f => and_congr_right fun _ => ?_
  exact (List.prefix_map_iff_of_injective Terminal.symbol_injective).symm

theorem hasForm_iff {lexemes : List Lexeme} :
    HasForm lexemes ↔ lineGrammar.IsSentence ((lexemes.map Lexeme.token).map Token.symbol) := by
  rw [isSentence_iff, symbols_tokens]
  refine exists_congr fun f => and_congr_right fun _ => ?_
  exact (List.map_injective_iff.mpr Terminal.symbol_injective).eq_iff.symm

/-! ## The tree of a line -/

/-- What the parser makes of items. -/
inductive Parsed (items : List (Except LexError Lexeme)) :
    Except LineError (Tree SymbolId RuleId) → Prop
  | tree {k : Nat} {f : Form} {lexemes : List Lexeme} (form : Form.all[k]? = some f)
      (split : items = lexemes.map .ok) (terminals : lexemes.map Lexeme.terminal = f.terminals) :
      Parsed items (.ok (lineTree k (lexemes.map Lexeme.token)))
  | lex {head : List Lexeme} {e : LexError} {rest : List (Except LexError Lexeme)}
      (longest : LongestHead items head (.error e :: rest)) : Parsed items (.error (.lex e))
  | unexpected {head : List Lexeme} {l : Lexeme} {rest : List (Except LexError Lexeme)}
      (state : StateId) (longest : LongestHead items head (.ok l :: rest)) :
      Parsed items (.error (.unexpected state (some (l.terminal.name, l.text)) (expectedIn state)))
  | early {head : List Lexeme} (state : StateId) (longest : LongestHead items head [])
      (incomplete : ¬ HasForm head) :
      Parsed items (.error (.unexpected state none (expectedIn state)))

/-- Items that become tokens are lexemes. -/
theorem exists_lexemes {items : List (Except LexError Lexeme)} {w : List (Token SymbolId)}
    (h : items.map (Except.map Lexeme.token) = w.map .ok) :
    ∃ lexemes : List Lexeme, items = lexemes.map .ok ∧ w = lexemes.map Lexeme.token := by
  induction items generalizing w with
  | nil => exact ⟨[], rfl, List.map_eq_nil_iff.mp h.symm⟩
  | cons item items ih =>
      obtain ⟨x, w, rfl, hx, hw⟩ := List.map_eq_cons_iff.mp h.symm
      obtain ⟨lexemes, rfl, rfl⟩ := ih hw.symm
      cases item with
      | error e => cases hx
      | ok l =>
          cases hx
          exact ⟨l :: lexemes, rfl, rfl⟩

/-- Before an item at which the tokens break off stand lexemes. -/
theorem exists_head {items : List (Except LexError Lexeme)} {w : List (Token SymbolId)}
    {x : Except LexError (Token SymbolId)} {rest : List (Except LexError (Token SymbolId))}
    (h : items.map (Except.map Lexeme.token) = w.map .ok ++ x :: rest) :
    ∃ (head : List Lexeme) (item : Except LexError Lexeme) (behind : _),
      items = head.map .ok ++ item :: behind ∧ w = head.map Lexeme.token ∧
        item.map Lexeme.token = x := by
  obtain ⟨front, behind, rfl, hfront, hbehind⟩ := List.map_eq_append_iff.mp h
  obtain ⟨item, behind, rfl, hitem, -⟩ := List.map_eq_cons_iff.mp hbehind
  obtain ⟨head, rfl, rfl⟩ := exists_lexemes hfront
  exact ⟨head, item, behind, rfl, rfl, hitem⟩

theorem nameOf_symbol (t : Terminal) : lineGrammar.nameOf t.symbol = t.name :=
  Vocabulary.nameOf_of_lookup? (lookup?_name t)

/-- The outcome of a parse, said of the lexemes. -/
theorem parsed_of_outcome {items : List (Except LexError Lexeme)}
    {result : Except (ParseError SymbolId RuleId LexError) (Tree SymbolId RuleId)}
    (outcome : SlrTable.Outcome lineGrammar (items.map (Except.map Lexeme.token)) result) :
    Parsed items (result.mapError LineError.ofParseError) := by
  generalize htokens : items.map (Except.map Lexeme.token) = tokens at outcome
  cases outcome with
  | @accepted tree derivation =>
      obtain ⟨k, f, w, ⟨form, symbols⟩, rfl⟩ := isDerivationTree_iff.mp derivation
      rw [leaves_lineTree] at htokens
      obtain ⟨lexemes, split, rfl⟩ := exists_lexemes htokens
      rw [symbols_tokens] at symbols
      exact .tree form split (List.map_injective_iff.mpr Terminal.symbol_injective symbols)
  | @refused w x rest state viable wrong =>
      obtain ⟨head, item, behind, rfl, rfl, hitem⟩ := exists_head htokens
      cases item with
      | error e => cases hitem
      | ok l =>
          cases hitem
          have longest : LongestHead (head.map .ok ++ .ok l :: behind) head (.ok l :: behind) := by
            refine longestHead_of_wrong rfl (beginsForm_iff.mpr viable) fun l' hl' => ?_
            obtain rfl : l = l' := Option.some.inj hl'
            rw [beginsForm_iff, List.map_append, List.map_append]
            exact wrong
          have hparsed := Parsed.unexpected state longest
          rw [← nameOf_symbol] at hparsed
          exact hparsed
  | @early w state viable wrong =>
      obtain ⟨head, rfl, rfl⟩ := exists_lexemes htokens
      have longest : LongestHead (head.map .ok) head [] :=
        longestHead_of_wrong (List.append_nil _).symm (beginsForm_iff.mpr viable) nofun
      exact .early state longest (mt hasForm_iff.mp wrong)
  | @failed w e rest viable =>
      obtain ⟨head, item, behind, rfl, rfl, hitem⟩ := exists_head htokens
      cases item with
      | ok l => cases hitem
      | error e' =>
          cases hitem
          exact .lex (longestHead_of_wrong rfl (beginsForm_iff.mpr viable) nofun)

theorem parsed_parseLine (line : String) : Parsed (lex line) (parseLine line) := by
  obtain ⟨result, hparse, outcome⟩ := exists_outcome (lineTokens line)
  have hresult : parseLine line = result.mapError LineError.ofParseError := by
    simp only [parseLine, hparse]
    cases result <;> rfl
  rw [hresult]
  exact parsed_of_outcome outcome

/-- Only lines in a form have trees. -/
theorem exists_form_of_parseLine {line : String} {t : Tree SymbolId RuleId}
    (h : parseLine line = .ok t) : ∃ f ∈ Form.all, ∃ lexemes : List Lexeme,
      lex line = lexemes.map .ok ∧ lexemes.map Lexeme.terminal = f.terminals := by
  have hparsed := parsed_parseLine line
  rw [h] at hparsed
  cases hparsed with
  | tree form split terminals => exact ⟨_, List.mem_of_getElem? form, _, split, terminals⟩

/-- Nothing but a tree is made of items in a form. -/
theorem Parsed.eq_of_form {items : List (Except LexError Lexeme)}
    {result : Except LineError (Tree SymbolId RuleId)} (h : Parsed items result) {f : Form}
    (hf : f ∈ Form.all) {lexemes : List Lexeme} (hitems : lexemes.map .ok = items)
    (terminals : lexemes.map Lexeme.terminal = f.terminals) :
    ∃ k, Form.all[k]? = some f ∧ result = .ok (lineTree k (lexemes.map Lexeme.token)) := by
  cases h with
  | @tree k f' lexemes' form split terminals' =>
      obtain rfl := List.map_injective_iff.mpr ok_injective (hitems.trans split)
      -- no two forms have the same terminals
      have apart : ∀ f ∈ Form.all, ∀ f' ∈ Form.all, f.terminals = f'.terminals → f = f' := by decide
      obtain rfl := apart f hf f' (List.mem_of_getElem? form) (terminals.symm.trans terminals')
      exact ⟨k, form, rfl⟩
  | @lex head e rest longest =>
      have hmem : .error e ∈ lexemes.map (Except.ok (ε := LexError)) := by
        rw [hitems, longest.split]
        simp
      obtain ⟨l, -, hl⟩ := List.mem_map.mp hmem
      cases hl
  | @unexpected head l rest state longest =>
      -- all of the items begin the form, so the longest beginning leaves nothing behind
      have begins : BeginsForm lexemes := ⟨f, hf, terminals ▸ List.prefix_refl _⟩
      have hle := longest.longest lexemes [] (hitems.symm.trans (List.append_nil _).symm) begins
      have hlength := congrArg List.length (hitems.trans longest.split)
      simp only [List.length_append, List.length_map, List.length_cons] at hlength
      omega
  | early state longest incomplete =>
      have heq := hitems.trans longest.split
      rw [List.append_nil] at heq
      obtain rfl := List.map_injective_iff.mpr ok_injective heq
      exact absurd ⟨f, hf, terminals⟩ incomplete

/-! ## The instruction of a line -/

theorem ofTree_lineTree {k : Nat} {f : Form} (form : Form.all[k]? = some f)
    (tokens : List (Token SymbolId)) :
    Instruction.ofTree (lineTree k tokens) =
      Instruction.ofShape f.shape (tokens.map Token.text) := by
  have hshape : shapeOf? (k + 2) = some f.shape := by
    have hforms : ∀ k < Form.all.length, shapeOf? (k + 2) = (Form.all[k]?).map Form.shape := by
      decide +kernel
    rw [hforms k (List.getElem?_eq_some_iff.mp form).1, form, Option.map_some]
  have htexts : (tokens.map Tree.leaf).filterMap (Tree.leafText? (R := RuleId)) =
      tokens.map Token.text := by
    rw [List.filterMap_map, ← List.filterMap_eq_map]
    rfl
  simp only [lineTree, instructionTree, Instruction.ofTree, Tree.children, Tree.rule?,
    Option.bind_some, hshape, htexts]

theorem assembleLine_of_error {line : String} {e : LineError} (h : parseLine line = .error e) :
    assembleLine line = .error e := by
  simp only [assembleLine, h]

theorem assembleLine_of_ok {line : String} {t : Tree SymbolId RuleId} (h : parseLine line = .ok t) :
    assembleLine line = (Instruction.ofTree t).mapError .instruction := by
  simp only [assembleLine, h]
  cases Instruction.ofTree t <;> rfl

/-- A line in a form is the instruction that its texts are read as. -/
theorem assembleLine_of_form {line : String} {f : Form} (hf : f ∈ Form.all) {lexemes : List Lexeme}
    (split : lex line = lexemes.map .ok) (terminals : lexemes.map Lexeme.terminal = f.terminals) :
    assembleLine line =
      (Instruction.ofShape f.shape (lexemes.map Lexeme.text)).mapError .instruction := by
  obtain ⟨k, form, hparse⟩ := (parsed_parseLine line).eq_of_form hf split.symm terminals
  rw [assembleLine_of_ok hparse, ofTree_lineTree form, List.map_map]
  rfl

theorem spelled_of_lex {line : String} {lexemes : List Lexeme} (split : lex line = lexemes.map .ok) :
    ∀ l ∈ lexemes, l.Spelled := by
  intro l hl
  have hmem : .ok l ∈ lex line := split ▸ List.mem_map_of_mem hl
  exact spelled_of_mem_scan hmem

section

variable {line : String} {f : Form} {lexemes : List Lexeme}

/-- A line in a form is assembled to the instruction that is written. -/
theorem assembleLine_eq_ok_iff_writtenAs (hf : f ∈ Form.all) (split : lex line = lexemes.map .ok)
    (terminals : lexemes.map Lexeme.terminal = f.terminals) {i : Instruction} :
    assembleLine line = .ok i ↔ i.WrittenAs f lexemes := by
  rw [assembleLine_of_form hf split terminals,
    ← ofShape_eq_ok_iff hf (spelled_of_lex split) terminals]
  cases Instruction.ofShape f.shape (lexemes.map Lexeme.text) <;> simp [Except.mapError]

/-- A line in a form is refused only for a number that is too large. -/
theorem exists_isLarge_of_assembleLine (hf : f ∈ Form.all) (split : lex line = lexemes.map .ok)
    (terminals : lexemes.map Lexeme.terminal = f.terminals) {e : LineError}
    (h : assembleLine line = .error e) :
    ∃ l ∈ lexemes, l.IsLarge ∧ e = .instruction (.immediateOutOfRange l.text) := by
  rw [assembleLine_of_form hf split terminals] at h
  cases hread : Instruction.ofShape f.shape (lexemes.map Lexeme.text) with
  | ok i =>
      rw [hread] at h
      cases h
  | error e' =>
      obtain ⟨l, hl, large, rfl⟩ :=
        exists_isLarge_of_ofShape hf (spelled_of_lex split) terminals hread
      rw [hread] at h
      cases h
      exact ⟨l, hl, large, rfl⟩

end

/-- **Which lines are assembled**, and to which instruction. -/
theorem assembleLine_eq_ok_iff {line : String} {i : Instruction} :
    assembleLine line = .ok i ↔ ∃ f ∈ Form.all, ∃ lexemes : List Lexeme,
      lex line = lexemes.map .ok ∧ lexemes.map Lexeme.terminal = f.terminals ∧
        i.WrittenAs f lexemes := by
  constructor
  · intro h
    cases hparse : parseLine line with
    | error e =>
        rw [assembleLine_of_error hparse] at h
        cases h
    | ok t =>
        obtain ⟨f, hf, lexemes, split, terminals⟩ := exists_form_of_parseLine hparse
        exact ⟨f, hf, lexemes, split, terminals,
          (assembleLine_eq_ok_iff_writtenAs hf split terminals).mp h⟩
  · rintro ⟨f, hf, lexemes, split, terminals, written⟩
    exact (assembleLine_eq_ok_iff_writtenAs hf split terminals).mpr written

/-! ## The decision -/

/-- What the assembly of a line results in, where `items` are those of the line. -/
structure Decides (items : List (Except LexError Lexeme)) (result : Except LineError Instruction) :
    Prop where
  /-- Lexemes in a form, with no number that is too large, are the instruction that they stand for. -/
  assembled : ∀ f ∈ Form.all, ∀ lexemes : List Lexeme, items = lexemes.map .ok →
    lexemes.map Lexeme.terminal = f.terminals → (∀ l ∈ lexemes, ¬ l.IsLarge) →
      ∃ i, result = .ok i ∧ i.WrittenAs f lexemes
  /-- A number that is too large is reported where all else is in order. -/
  large : ∀ lexemes : List Lexeme, items = lexemes.map .ok → HasForm lexemes →
    ∀ l ∈ lexemes, l.IsLarge → result = .error (.instruction (.immediateOutOfRange l.text))
  /-- Other items are refused at the end of their longest beginning that begins a form. -/
  refused : (¬ ∃ lexemes : List Lexeme, items = lexemes.map .ok ∧ HasForm lexemes) →
    ∃ head rest, LongestHead items head rest ∧
      match rest with
      | .error e :: _ => result = .error (.lex e)
      | .ok l :: _ => ∃ state, result =
          .error (.unexpected state (some (l.terminal.name, l.text)) (expectedIn state))
      | [] => ∃ state, result = .error (.unexpected state none (expectedIn state))
  /-- Nothing else goes wrong. -/
  faultless : (∀ reason, result ≠ .error (.failed reason)) ∧
    ∀ e, result = .error (.instruction e) → ∃ text, e = .immediateOutOfRange text

/-- **A line is decided by its items alone**, with the first of its faults reported. -/
theorem decides_assembleLine (line : String) : Decides (lex line) (assembleLine line) := by
  constructor
  · intro f hf lexemes split terminals small
    cases h : assembleLine line with
    | ok i => exact ⟨i, rfl, (assembleLine_eq_ok_iff_writtenAs hf split terminals).mp h⟩
    | error e =>
        obtain ⟨l, hl, large, -⟩ := exists_isLarge_of_assembleLine hf split terminals h
        exact absurd large (small l hl)
  · rintro lexemes split ⟨f, hf, terminals⟩ l hl large
    cases h : assembleLine line with
    | ok i =>
        have written := (assembleLine_eq_ok_iff_writtenAs hf split terminals).mp h
        exact absurd large (written.not_isLarge l hl)
    | error e =>
        obtain ⟨l', hl', large', rfl⟩ := exists_isLarge_of_assembleLine hf split terminals h
        rw [eq_of_isLarge hf terminals hl hl' large large']
  · intro hform
    cases hparse : parseLine line with
    | ok t =>
        obtain ⟨f, hf, lexemes, split, terminals⟩ := exists_form_of_parseLine hparse
        exact absurd ⟨lexemes, split, f, hf, terminals⟩ hform
    | error e =>
        have hparsed := parsed_parseLine line
        rw [hparse] at hparsed
        rw [assembleLine_of_error hparse]
        cases hparsed with
        | lex longest => exact ⟨_, _, longest, rfl⟩
        | unexpected state longest => exact ⟨_, _, longest, state, rfl⟩
        | early state longest incomplete => exact ⟨_, _, longest, state, rfl⟩
  · cases hparse : parseLine line with
    | ok t =>
        obtain ⟨f, hf, lexemes, split, terminals⟩ := exists_form_of_parseLine hparse
        constructor
        · intro reason h
          obtain ⟨l, -, -, he⟩ := exists_isLarge_of_assembleLine hf split terminals h
          cases he
        · intro e h
          obtain ⟨l, -, -, he⟩ := exists_isLarge_of_assembleLine hf split terminals h
          exact ⟨l.text, LineError.instruction.inj he⟩
    | error e =>
        have hparsed := parsed_parseLine line
        rw [hparse] at hparsed
        rw [assembleLine_of_error hparse]
        cases hparsed with
        | lex longest => exact ⟨nofun, nofun⟩
        | unexpected state longest => exact ⟨nofun, nofun⟩
        | early state longest incomplete => exact ⟨nofun, nofun⟩

end ShiftReduce.Assembly
