import ShiftReduce.Proofs.Assembly.Decision
import ShiftReduce.Proofs.SlrTable.Listed

/-!
# What is expected

A line that is refused for a lexeme, or for its end, comes back with what was expected there: the names
of the symbols that the row of the parser's state lists. This is the state to which the lexemes before
the place lead, as the parser stops there before it reduces anything. Behind one lexeme or more it lists
what may be written next and nothing else. Before the first lexeme the line itself and its instruction
are awaited as well, and their names are listed although neither can be written
(`expected_of_parseLine`).
-/

namespace ShiftReduce.Assembly

/-! ## Items behind tokens -/

section

variable {w : List SymbolId} {x : SymbolId} {k : Nat} {f : Form}

theorem exists_rule_of_form (hf : Form.all[k]? = some f) :
    ∃ r, lineGrammar.rule? (k + 2) = some r ∧ r.head = 6 ∧ r.body.toList = f.symbols := by
  have hgiven : lineGrammar.given? (k + 2) = some (6, f.symbols) :=
    given?_lineGrammar.mpr (Or.inr ⟨k, f, rfl, hf, rfl, rfl⟩)
  obtain ⟨i, r, hi, hr, hhead, hbody⟩ := Grammar.given?_eq_some_iff.mp hgiven
  obtain rfl : k + 1 = i := Nat.succ.inj hi
  exact ⟨r, hr, hhead, hbody⟩

/-- Before the first token a line is awaited, hence its instruction, hence each form. -/
theorem valid_instruction : lineGrammar.Valid [] (.initial 1) := by
  have awaits : (Item.initial 0).awaits? lineGrammar = some 5 := by decide +kernel
  have rule : 1 ∈ lineGrammar.rulesOf 5 := by decide +kernel
  exact .predict .start awaits rule

theorem valid_form (hf : Form.all[k]? = some f) : lineGrammar.Valid [] (.initial (k + 2)) := by
  have awaits : (Item.initial 1).awaits? lineGrammar = some 6 := by decide +kernel
  obtain ⟨r, hr, hhead, -⟩ := exists_rule_of_form hf
  exact .predict valid_instruction awaits (Grammar.mem_rulesOf.mpr ⟨k + 1, r, rfl, hr, hhead⟩)

/-- A form is valid behind its beginnings. -/
theorem valid_of_prefix (hf : Form.all[k]? = some f) (begins : w <+: f.symbols) :
    lineGrammar.Valid w.reverse ⟨k + 2, w.length⟩ := by
  obtain ⟨r, hr, -, hbody⟩ := exists_rule_of_form hf
  have hseen : Item.seen lineGrammar ⟨k + 2, w.length⟩ = w := by
    rw [Item.seen_of_rule? hr, hbody]
    exact (List.prefix_iff_eq_take.mp begins).symm
  have hinner : lineGrammar.endOfInput ∉ Item.seen lineGrammar ⟨k + 2, w.length⟩ := by
    rw [hseen]
    intro hmem
    exact (Form.isTerminal_of_mem_symbols _ (begins.subset hmem)).ne_endOfInput rfl
  have hlength : w.length ≤ r.body.size := by
    rw [← Array.length_toList, hbody]
    exact begins.length_le
  have hvalid := (valid_form hf).of_seen hr hlength hinner
  rwa [hseen, List.append_nil] at hvalid

theorem next?_form (hf : Form.all[k]? = some f) (begins : w ++ [x] <+: f.symbols) :
    Item.next? lineGrammar ⟨k + 2, w.length⟩ = some x := by
  obtain ⟨r, hr, -, hbody⟩ := exists_rule_of_form hf
  obtain ⟨v, hv⟩ := begins
  rw [Item.next?_of_rule? (i := ⟨k + 2, w.length⟩) hr, hbody, ← hv, List.append_assoc,
    List.getElem?_append_right (Nat.le_refl _), Nat.sub_self]
  rfl

/-- What stands on the stack is what a valid item has seen of its body. -/
theorem eq_take_of_valid {i : Item} (valid : lineGrammar.Valid w.reverse i) {r : Rule}
    (hr : lineGrammar.rule? i.rule = some r) : w = r.body.toList.take i.cursor := by
  rw [← Item.seen_of_rule? hr]
  exact List.reverse_injective (eq_reverse_seen valid)

/-- Behind tokens an item awaits what may come next, or it is the first one of all or that of a line. -/
theorem isViable_or_of_next? (terminals : ∀ y ∈ w, lineGrammar.IsTerminal y) {i : Item}
    (valid : lineGrammar.Valid w.reverse i) (next : i.next? lineGrammar = some x) :
    lineGrammar.IsViable (w ++ [x]) ∨ w = [] ∧ (x = 5 ∨ x = 6) := by
  obtain ⟨r, hr, -⟩ := Option.bind_eq_some_iff.mp next
  have hw := eq_take_of_valid valid hr
  rw [Item.next?_of_rule? hr] at next
  rcases rule_cases hr with ⟨hrule, rfl⟩ | ⟨-, -, hbody⟩ | ⟨k, f, -, hf, -, hbody⟩
  · have hbody : lineGrammar.acceptRule.body.toList = [5, lineGrammar.endOfInput] :=
      congrArg ([·, lineGrammar.endOfInput]) start_lineGrammar
    rcases valid.of_rule_zero hrule with ⟨rfl, -⟩ | ⟨-, hstack⟩
    · rw [hbody] at hw next
      exact Or.inr ⟨hw, Or.inl (Option.some.inj next).symm⟩
    · -- the start symbol is no token
      have hstart := terminals lineGrammar.start (List.mem_reverse.mp (hstack ▸ List.mem_cons_self))
      exact absurd lineGrammar.start_nonterminal hstart.not_isNonterminal
  · rw [hbody] at hw next
    cases hcursor : i.cursor with
    | zero =>
        rw [hcursor] at hw next
        exact Or.inr ⟨hw, Or.inr (Option.some.inj next).symm⟩
    | succ c =>
        rw [hcursor] at next
        cases next
  · rw [hbody] at hw next
    have htake : w ++ [x] = f.symbols.take (i.cursor + 1) := by
      rw [List.take_add_one, next, ← hw]
      rfl
    refine Or.inl (isViable_iff.mpr ⟨f, List.mem_of_getElem? hf, ?_⟩)
    rw [htake]
    exact List.take_prefix _ _

/-- **What is awaited behind tokens** is what may come next. Where there are no tokens, a line and an
instruction are awaited too. -/
theorem exists_next?_iff (terminals : ∀ y ∈ w, lineGrammar.IsTerminal y) :
    (∃ i, lineGrammar.Valid w.reverse i ∧ i.next? lineGrammar = some x) ↔
      lineGrammar.IsViable (w ++ [x]) ∨ w = [] ∧ (x = 5 ∨ x = 6) := by
  constructor
  · rintro ⟨i, valid, next⟩
    exact isViable_or_of_next? terminals valid next
  · rintro (hviable | ⟨rfl, rfl | rfl⟩)
    · obtain ⟨f, hf, begins⟩ := isViable_iff.mp hviable
      obtain ⟨k, hk⟩ := List.getElem?_of_mem hf
      exact ⟨_, valid_of_prefix hk ((List.prefix_append w [x]).trans begins), next?_form hk begins⟩
    · exact ⟨_, .start, congrArg some start_lineGrammar⟩
    · exact ⟨_, valid_instruction, by decide +kernel⟩

/-- Only the end can follow an instruction. -/
theorem mem_followSet_instruction :
    x ∈ (FirstFollow.compute lineGrammar).followSet 6 ↔ x = lineGrammar.endOfInput := by
  have hfollow : ((FirstFollow.compute lineGrammar).followSet 6).toList = [7] := by decide +kernel
  rw [← OrderedSet.mem_toList, hfollow, List.mem_singleton, endOfInput_lineGrammar]

/-- Behind tokens a body has been seen just if they are a form. -/
theorem exists_complete_iff (terminals : ∀ y ∈ w, lineGrammar.IsTerminal y) :
    (∃ q r, lineGrammar.rule? q = some r ∧ lineGrammar.Valid w.reverse ⟨q, r.body.size⟩ ∧
      x ∈ (FirstFollow.compute lineGrammar).followSet r.head) ↔
      lineGrammar.IsSentence w ∧ x = lineGrammar.endOfInput := by
  constructor
  · rintro ⟨q, r, hr, valid, follows⟩
    have hw : w = r.body.toList := by
      rw [eq_take_of_valid valid hr, ← Array.length_toList, List.take_length]
    rcases rule_cases hr with ⟨-, rfl⟩ | ⟨-, -, hbody⟩ | ⟨k, f, -, hf, hhead, hbody⟩
    · have hstart := terminals lineGrammar.start (hw ▸ List.mem_cons_self)
      exact absurd lineGrammar.start_nonterminal hstart.not_isNonterminal
    · have hinstruction := terminals 6 (hw.trans hbody ▸ List.mem_cons_self)
      exact absurd isNonterminal_instruction hinstruction.not_isNonterminal
    · rw [hhead] at follows
      exact ⟨isSentence_iff.mpr ⟨f, List.mem_of_getElem? hf, hw.trans hbody⟩,
        mem_followSet_instruction.mp follows⟩
  · rintro ⟨hsentence, rfl⟩
    obtain ⟨f, hf, rfl⟩ := isSentence_iff.mp hsentence
    obtain ⟨k, hk⟩ := List.getElem?_of_mem hf
    obtain ⟨r, hr, hhead, hbody⟩ := exists_rule_of_form hk
    have hsize : r.body.size = f.symbols.length := by rw [← Array.length_toList, hbody]
    refine ⟨k + 2, r, hr, ?_, ?_⟩
    · rw [hsize]
      exact valid_of_prefix hk (List.prefix_refl _)
    · rw [hhead]
      exact mem_followSet_instruction.mpr rfl

end

/-! ## States behind lexemes -/

/-- The lexemes as symbols of the grammar of a line. -/
def symbolsOf (lexemes : List Lexeme) : List SymbolId :=
  (lexemes.map Lexeme.token).map Token.symbol

theorem beginsForm_concat_iff {head : List Lexeme} {l : Lexeme} :
    BeginsForm (head ++ [l]) ↔ lineGrammar.IsViable (symbolsOf head ++ [l.terminal.symbol]) := by
  rw [beginsForm_iff, List.map_append, List.map_append]
  rfl

/-- The longest beginning does not go on with the next lexeme. -/
theorem LongestHead.not_beginsForm {items rest : List (Except LexError Lexeme)} {head : List Lexeme}
    {l : Lexeme} (h : LongestHead items head (.ok l :: rest)) : ¬ BeginsForm (head ++ [l]) := by
  intro begins
  have hle := h.longest (head ++ [l]) rest (by simp [h.split]) begins
  rw [List.length_append, List.length_singleton] at hle
  omega

/-- What goes on with a sentence is a terminal. -/
theorem exists_terminal_of_isViable {w : List SymbolId} {x : SymbolId}
    (h : lineGrammar.IsViable (w ++ [x])) : ∃ t : Terminal, x = t.symbol := by
  obtain ⟨f, -, begins⟩ := isViable_iff.mp h
  obtain ⟨t, -, rfl⟩ := List.mem_map.mp (begins.subset (List.mem_append_right _ List.mem_cons_self))
  exact ⟨t, rfl⟩

theorem Terminal.symbol_lt (t : Terminal) : t.symbol < 5 := by cases t <;> decide

theorem isTerminal_of_mem_symbolsOf {lexemes : List Lexeme} :
    ∀ x ∈ symbolsOf lexemes, lineGrammar.IsTerminal x := by
  rw [symbolsOf, symbols_tokens]
  intro x hx
  obtain ⟨t, -, rfl⟩ := List.mem_map.mp hx
  exact isTerminal_symbol t

section

variable {a : Automaton} (h : lineTable.Describes lineGrammar (FirstFollow.compute lineGrammar) a)

include h

/-- **What is listed behind lexemes** is what may come next, the end included. Where there are no
lexemes, a line and an instruction are listed too. -/
theorem mem_listed_iff_of_path {head : List Lexeme} {q : StateId}
    (path : a.path? 0 (symbolsOf head) = some q) {x : SymbolId} : x ∈ lineTable.listed q ↔
      lineGrammar.IsViable (symbolsOf head ++ [x]) ∨
        lineGrammar.IsSentence (symbolsOf head) ∧ x = lineGrammar.endOfInput ∨
          head = [] ∧ (x = 5 ∨ x = 6) := by
  obtain ⟨σ, linked, hσ⟩ := Automaton.path?_eq_some_iff.mp path
  have hnil : symbolsOf head = [] ↔ head = [] := by
    rw [symbolsOf, List.map_eq_nil_iff, List.map_eq_nil_iff]
  rw [h.mem_listed_iff linked, hσ, exists_next?_iff isTerminal_of_mem_symbolsOf,
    exists_complete_iff isTerminal_of_mem_symbolsOf, hnil, or_assoc, or_comm (a := _ ∧ _)]

/-- A lexeme that cannot come next is not listed. -/
theorem symbol_not_mem_listed {head : List Lexeme} {q : StateId}
    (path : a.path? 0 (symbolsOf head) = some q) {l : Lexeme} (wrong : ¬ BeginsForm (head ++ [l])) :
    l.terminal.symbol ∉ lineTable.listed q := by
  intro hlisted
  rcases (mem_listed_iff_of_path h path).mp hlisted with
    hviable | ⟨-, hend⟩ | ⟨-, hline | hinstruction⟩
  · exact wrong (beginsForm_concat_iff.mpr hviable)
  · exact (isTerminal_symbol l.terminal).ne_endOfInput hend
  · exact Nat.ne_of_lt l.terminal.symbol_lt hline
  · exact Nat.ne_of_lt (Nat.lt_succ_of_lt l.terminal.symbol_lt) hinstruction

/-- The end is not listed where the lexemes are no form. -/
theorem endOfInput_not_mem_listed {head : List Lexeme} {q : StateId}
    (path : a.path? 0 (symbolsOf head) = some q) (incomplete : ¬ HasForm head) :
    lineGrammar.endOfInput ∉ lineTable.listed q := by
  intro hlisted
  rcases (mem_listed_iff_of_path h path).mp hlisted with
    hviable | ⟨hsentence, -⟩ | ⟨-, hline | hinstruction⟩
  · obtain ⟨t, ht⟩ := exists_terminal_of_isViable hviable
    exact (isTerminal_symbol t).ne_endOfInput ht.symm
  · exact incomplete (hasForm_iff.mpr hsentence)
  · exact absurd (endOfInput_lineGrammar.symm.trans hline) (by decide)
  · exact absurd (endOfInput_lineGrammar.symm.trans hinstruction) (by decide)

/-- The parser comes along the path of lexemes that begin a form, whatever stands behind them. -/
theorem exists_path_of_begins {E : Type} {head : List Lexeme} (begins : BeginsForm head)
    (rest : List (Except E (Token SymbolId))) :
    ∃ q σ, a.path? 0 (symbolsOf head) = some q ∧
      lineTable.parsing.Reaches head.length
        (.over 0 [] (inputs ((head.map Lexeme.token).map .ok ++ rest))) (.over q σ (inputs rest)) := by
  obtain ⟨f, hf, hprefix⟩ := isViable_iff.mp (beginsForm_iff.mp begins)
  obtain ⟨k, hk⟩ := List.getElem?_of_mem hf
  obtain ⟨r, hr, -, hbody⟩ := exists_rule_of_form hk
  obtain ⟨σ, q, linked, hσ, hreach⟩ := h.exists_reaches_of_awaited
    (fun l hl => isTerminal_of_mem_symbolsOf l.symbol (List.mem_map_of_mem hl))
    (i := .initial (k + 2)) hr (hbody ▸ hprefix) .start (valid_form hk) (inputs rest)
  rw [List.length_map, ← inputs_map_ok_append] at hreach
  exact ⟨q, σ, Automaton.path?_eq_some_iff.mpr ⟨σ, linked, hσ.trans (List.append_nil _)⟩, hreach⟩

/-- Where the symbol in view is not listed behind the lexemes, the parser stops with it in view, in the
state at the end of their path. -/
theorem path_of_not_listed {line : String} {head : List Lexeme}
    {rest : List (Except LexError (Token SymbolId))} {x : SymbolId}
    (split : lineTokens line = (head.map Lexeme.token).map .ok ++ rest) (begins : BeginsForm head)
    (view : lineTable.parsing.view? (inputs rest : List (Input SymbolId RuleId LexError)) = some x)
    (stuck : ∀ q, a.path? 0 (symbolsOf head) = some q → x ∉ lineTable.listed q)
    {state : StateId} {found : Option (String × String)} {expected : List String}
    (refused : parseLine line = .error (.unexpected state found expected)) :
    a.path? 0 (symbolsOf head) = some state := by
  obtain ⟨q, σ, path, hreach⟩ := exists_path_of_begins h begins rest
  rw [← split] at hreach
  have haction : lineTable.action? q x = none := by
    cases hact : lineTable.action? q x with
    | none => rfl
    | some act => exact absurd (SlrTable.mem_listed_iff_action?.mpr ⟨act, hact⟩) (stuck q path)
  have hfuel : head.length < maxMoves (lineTokens line).length := by
    rw [maxMoves, split, List.length_append, List.length_map, List.length_map]
    omega
  -- nothing is reduced on the way, so the state in which the parser stops is the one of the path
  have hrun := ParsingTable.run_eq_some_of_reaches hreach
    (Config.step_of_action?_eq_none view haction) hfuel
  have hparse := (lineTable.parsing.parse_eq_run _ (lineTokens line)).trans hrun
  rw [← SlrTable.parse] at hparse
  simp only [parseLine, hparse] at refused
  obtain ⟨rfl, -⟩ := LineError.unexpected.inj (Except.error.inj refused)
  exact path

end

/-! ## Names -/

/-- What may be written behind the lexemes, by name: a terminal with which some sentence goes on, or the
end if they are a sentence. -/
def MayFollow (head : List Lexeme) (name : String) : Prop :=
  (∃ t : Terminal, lineGrammar.IsViable (symbolsOf head ++ [t.symbol]) ∧ name = t.name) ∨
    lineGrammar.IsSentence (symbolsOf head) ∧ name = LineError.endOfLine

/-- What is found behind lexemes: the next one, or the end. -/
inductive Found : List (Except LexError Lexeme) → Option (String × String) → Prop
  | lexeme (l : Lexeme) (rest) : Found (.ok l :: rest) (some (l.terminal.name, l.text))
  | finish : Found [] none

/-- A symbol as lists of what is expected name it. -/
def expectedName (x : SymbolId) : String :=
  if x = lineGrammar.endOfInput then LineError.endOfLine else lineGrammar.nameOf x

theorem expectedIn_eq (q : StateId) : expectedIn q = (lineTable.listed q).map expectedName := rfl

theorem expectedName_symbol (t : Terminal) : expectedName t.symbol = t.name := by
  rw [expectedName, if_neg (isTerminal_symbol t).ne_endOfInput, nameOf_symbol]

section

variable {a : Automaton} (h : lineTable.Describes lineGrammar (FirstFollow.compute lineGrammar) a)
  {head : List Lexeme} {q : StateId} (path : a.path? 0 (symbolsOf head) = some q)

include h path

theorem mem_expectedIn_iff {name : String} : name ∈ expectedIn q ↔
    MayFollow head name ∨ head = [] ∧ (name = "START" ∨ name = "INSTRUCTION") := by
  have hline : expectedName 5 = "START" := by decide +kernel
  have hinstruction : expectedName 6 = "INSTRUCTION" := by decide +kernel
  have hend : expectedName lineGrammar.endOfInput = LineError.endOfLine := if_pos rfl
  rw [expectedIn_eq, List.mem_map]
  constructor
  · rintro ⟨x, hx, rfl⟩
    rcases (mem_listed_iff_of_path h path).mp hx with
      hviable | ⟨hsentence, rfl⟩ | ⟨hhead, rfl | rfl⟩
    · obtain ⟨t, rfl⟩ := exists_terminal_of_isViable hviable
      exact Or.inl (Or.inl ⟨t, hviable, expectedName_symbol t⟩)
    · exact Or.inl (Or.inr ⟨hsentence, hend⟩)
    · exact Or.inr ⟨hhead, Or.inl hline⟩
    · exact Or.inr ⟨hhead, Or.inr hinstruction⟩
  · rintro ((⟨t, hviable, rfl⟩ | ⟨hsentence, rfl⟩) | ⟨hhead, rfl | rfl⟩)
    · exact ⟨_, (mem_listed_iff_of_path h path).mpr (Or.inl hviable), expectedName_symbol t⟩
    · exact ⟨_, (mem_listed_iff_of_path h path).mpr (Or.inr (Or.inl ⟨hsentence, rfl⟩)), hend⟩
    · exact ⟨_, (mem_listed_iff_of_path h path).mpr (Or.inr (Or.inr ⟨hhead, Or.inl rfl⟩)), hline⟩
    · exact ⟨_, (mem_listed_iff_of_path h path).mpr (Or.inr (Or.inr ⟨hhead, Or.inr rfl⟩)),
        hinstruction⟩

/-- No two symbols of a line have one name, so no name is there twice. -/
theorem nodup_expectedIn : (expectedIn q).Nodup := by
  have apart : ∀ x < 8, ∀ y < 8, expectedName x = expectedName y → x = y := by decide +kernel
  have hlt : ∀ x ∈ lineTable.listed q, x < 8 := by
    intro x hx
    rcases (mem_listed_iff_of_path h path).mp hx with hviable | ⟨-, rfl⟩ | ⟨-, rfl | rfl⟩
    · obtain ⟨t, rfl⟩ := exists_terminal_of_isViable hviable
      exact Nat.lt_of_lt_of_le t.symbol_lt (by decide)
    · rw [endOfInput_lineGrammar]
      decide
    · decide
    · decide
  rw [expectedIn_eq]
  exact (SlrTable.nodup_listed compile_lineGrammar q).map_on fun x hx y hy =>
    apart x (hlt x hx) y (hlt y hy)

end

/-! ## Lists of what is expected -/

/-- The items of a line as the parser reads them. -/
theorem lineTokens_of_split {line : String} {head : List Lexeme}
    {rest : List (Except LexError Lexeme)} (split : lex line = head.map .ok ++ rest) :
    lineTokens line =
      (head.map Lexeme.token).map .ok ++ rest.map (Except.map Lexeme.token) := by
  show (lex line).map (Except.map Lexeme.token) = _
  rw [split, List.map_append, List.map_map, List.map_map]
  rfl

/-- **What is expected** where a line is refused for a lexeme or for its end: the message names what may
be written behind the lexemes before the place, each once. If there are none it names the line and its
instruction as well. -/
theorem expected_of_parseLine {line : String} {state : StateId} {found : Option (String × String)}
    {expected : List String} (h : parseLine line = .error (.unexpected state found expected)) :
    ∃ head rest, LongestHead (lex line) head rest ∧ Found rest found ∧ expected.Nodup ∧
      ∀ name, name ∈ expected ↔
        MayFollow head name ∨ head = [] ∧ (name = "START" ∨ name = "INSTRUCTION") := by
  obtain ⟨a, hdescribes⟩ := SlrTable.describes_of_compile compile_lineGrammar
  have hparsed := parsed_parseLine line
  rw [h] at hparsed
  cases hparsed with
  | @unexpected head l rest state longest =>
      have hrefuse := hdescribes.not_refuses_leaf (l := l.token) (isTerminal_symbol l.terminal)
      have path := path_of_not_listed hdescribes (lineTokens_of_split longest.split) longest.begins
        (ParsingTable.view?_tree hrefuse)
        (fun q path => symbol_not_mem_listed hdescribes path longest.not_beginsForm) h
      exact ⟨head, _, longest, .lexeme l rest, nodup_expectedIn hdescribes path,
        fun name => mem_expectedIn_iff hdescribes path⟩
  | @early head state longest incomplete =>
      have path := path_of_not_listed hdescribes (lineTokens_of_split longest.split) longest.begins
        (congrArg some hdescribes.endOfInput_eq)
        (fun q path => endOfInput_not_mem_listed hdescribes path incomplete) h
      exact ⟨head, _, longest, .finish, nodup_expectedIn hdescribes path,
        fun name => mem_expectedIn_iff hdescribes path⟩

/-- Behind `ADD r1,` a register or an integer may be written. -/
theorem expected_of_operand_missing :
    parseLine "ADD r1," = .error (.unexpected 5 none ["Register", "Integer"]) ∧
      ∃ head rest, LongestHead (lex "ADD r1,") head rest ∧ Found rest none ∧
        ["Register", "Integer"].Nodup ∧ ∀ name, name ∈ ["Register", "Integer"] ↔
          MayFollow head name ∨ head = [] ∧ (name = "START" ∨ name = "INSTRUCTION") := by
  have hparse : parseLine "ADD r1," = .error (.unexpected 5 none ["Register", "Integer"]) := by
    decide +kernel
  exact ⟨hparse, expected_of_parseLine hparse⟩

/-- **Names that cannot be written.** Where no lexeme is read, `START` is listed, which is the name of no
terminal and not that of the end. -/
theorem expected_at_first_lexeme :
    parseLine "loop ADD" = .error
        (.unexpected 0 (some ("Identifier", "loop")) ["Operation", "START", "INSTRUCTION"]) ∧
      "START" ∈ ["Operation", "START", "INSTRUCTION"] ∧ ¬ MayFollow [] "START" := by
  refine ⟨by decide +kernel, by decide, ?_⟩
  rintro (⟨t, -, hname⟩ | ⟨-, hname⟩)
  · cases t <;> exact absurd hname (by decide)
  · exact absurd hname (by decide)

end ShiftReduce.Assembly
