import Mathlib.Computability.Language
import ShiftReduce.Proofs.Assembly.Pieces

/-!
# Longest matches

What a line is cut into can also be said by patterns: at each place the longest text that matches one of
them is taken, a character at which no pattern matches is an error, and blanks and comments are dropped
(`LongestMatches`). A register is also a word, and is preferred. The two ways to cut a line agree: the
longest matches are the items that the first characters of the pieces lead to
(`longestMatches_iff`).
-/

namespace ShiftReduce.Assembly

open scoped Computability

/-! ## Patterns -/

inductive Pattern where
  /-- Blanks, or a comment. -/
  | skip
  | register
  | integer
  | word
  | comma
deriving DecidableEq, Repr

namespace Pattern

/-- Texts of one character of a class. -/
def one (p : Char → Bool) : Language Char := {cs | ∃ c, p c = true ∧ cs = [c]}

/-- The texts that match. -/
def language : Pattern → Language Char
  | .skip => one isGap * (one isGap)∗ + one (· = ';') * (one (· ≠ '\n'))∗
  | .register =>
    one (· = 'r') * (one (fun c => c = '1' || c = '2') * one Char.isDigit +
      one (· = '3') * one (fun c => c = '0' || c = '1') + one Char.isDigit)
  | .integer => one Char.isDigit * (one Char.isDigit)∗
  | .word => one isWordStart * (one isWordPart)∗
  | .comma => one (· = ',')

/-- What a match leaves behind, given its text and its place. A word that names an operation is one. -/
def item? (p : Pattern) (text : String) (start stop : Nat) : Option (Except LexError Lexeme) :=
  match p with
  | .skip => none
  | .register => some (.ok ⟨.register, text, start, stop⟩)
  | .integer => some (.ok ⟨.integer, text, start, stop⟩)
  | .word =>
    if (Operation.named? text).isSome then some (.ok ⟨.operation, text, start, stop⟩)
    else some (.ok ⟨.identifier, text, start, stop⟩)
  | .comma => some (.ok ⟨.comma, text, start, stop⟩)

/-- Whether the pattern is preferred where both match the same text. -/
def Outranks (p q : Pattern) : Prop := p = .register ∧ q ≠ .register

/-- The pattern takes a text from before a rest: no pattern matches a longer text, and none that is
preferred matches this one. -/
structure Takes (p : Pattern) (text rest : List Char) : Prop where
  nonempty : text ≠ []
  mem : text ∈ p.language
  longest : ∀ (q : Pattern) (more behind : List Char), rest = more ++ behind →
    text ++ more ∈ q.language → more = []
  preferred : ∀ q : Pattern, text ∈ q.language → q = p ∨ p.Outranks q

end Pattern

/-- The items of a text that begins at a given byte of its line, by longest matches. -/
inductive LongestMatches : Nat → List Char → List (Except LexError Lexeme) → Prop
  | done {start} : LongestMatches start [] []
  | take {start p text rest items} (takes : Pattern.Takes p text rest)
      (behind : LongestMatches (start + byteSize text) rest items) :
      LongestMatches start (text ++ rest)
        ((p.item? (String.ofList text) start (start + byteSize text)).toList ++ items)
  | stray {start c rest items}
      (unmatched : ∀ (p : Pattern) (text behind : List Char), c :: rest = text ++ behind →
        text ≠ [] → text ∉ p.language)
      (behind : LongestMatches (start + c.utf8Size) rest items) :
      LongestMatches start (c :: rest) (.error ⟨String.ofList [c], start + 1⟩ :: items)

/-! ## What matches -/

namespace Pattern

variable {p q : Char → Bool} {c : Char} {cs : List Char}

theorem mem_one : cs ∈ one p ↔ ∃ c, p c = true ∧ cs = [c] := Iff.rfl

theorem cons_mem_one_mul {l : Language Char} : c :: cs ∈ one p * l ↔ p c = true ∧ cs ∈ l := by
  rw [Language.mem_mul]
  constructor
  · rintro ⟨_, ⟨d, hd, rfl⟩, b, hb, heq⟩
    obtain ⟨rfl, rfl⟩ := List.cons.inj heq
    exact ⟨hd, hb⟩
  · rintro ⟨hc, hcs⟩
    exact ⟨[c], ⟨c, hc, rfl⟩, cs, hcs, rfl⟩

theorem mem_star_one : cs ∈ (one p)∗ ↔ ∀ c ∈ cs, p c = true := by
  rw [Language.mem_kstar]
  constructor
  · rintro ⟨parts, rfl, hparts⟩ c hc
    obtain ⟨part, hpart, hmem⟩ := List.mem_flatten.mp hc
    obtain ⟨d, hd, rfl⟩ := hparts part hpart
    obtain rfl := List.mem_singleton.mp hmem
    exact hd
  · intro h
    refine ⟨cs.map fun c => [c], ?_, ?_⟩
    · rw [← List.flatMap_def, List.flatMap_singleton']
    · intro part hpart
      obtain ⟨c, hc, rfl⟩ := List.mem_map.mp hpart
      exact ⟨c, h c hc, rfl⟩

theorem cons_mem_run : c :: cs ∈ one p * (one q)∗ ↔ p c = true ∧ ∀ x ∈ cs, q x = true := by
  rw [cons_mem_one_mul, mem_star_one]

/-- Blanks that stand together are skipped, or a comment is. -/
theorem cons_mem_skip : c :: cs ∈ skip.language ↔
    (isGap c = true ∧ ∀ x ∈ cs, isGap x = true) ∨ (c = ';' ∧ '\n' ∉ cs) := by
  have hnewline : '\n' ∉ cs ↔ ∀ x ∈ cs, decide (x ≠ '\n') = true := by
    simp only [decide_eq_true_eq]
    exact ⟨fun h x hx heq => h (heq ▸ hx), fun h hmem => h _ hmem rfl⟩
  rw [language, Language.mem_add, cons_mem_run, cons_mem_run, decide_eq_true_eq, hnewline]

theorem cons_mem_integer :
    c :: cs ∈ integer.language ↔ c.isDigit = true ∧ ∀ x ∈ cs, x.isDigit = true :=
  cons_mem_run

theorem cons_mem_word :
    c :: cs ∈ word.language ↔ isWordStart c = true ∧ ∀ x ∈ cs, isWordPart x = true :=
  cons_mem_run

theorem cons_mem_comma : c :: cs ∈ comma.language ↔ c = ',' ∧ cs = [] := by
  rw [language, mem_one]
  constructor
  · rintro ⟨d, hd, heq⟩
    obtain ⟨rfl, rfl⟩ := List.cons.inj heq
    exact ⟨of_decide_eq_true hd, rfl⟩
  · rintro ⟨rfl, rfl⟩
    exact ⟨',', rfl, rfl⟩

theorem mem_one_mul_one : cs ∈ one p * one q ↔ ∃ a b, p a = true ∧ q b = true ∧ cs = [a, b] := by
  rw [Language.mem_mul]
  constructor
  · rintro ⟨_, ⟨a, ha, rfl⟩, _, ⟨b, hb, rfl⟩, rfl⟩
    exact ⟨a, b, ha, hb, rfl⟩
  · rintro ⟨a, b, ha, hb, rfl⟩
    exact ⟨[a], ⟨a, ha, rfl⟩, [b], ⟨b, hb, rfl⟩, rfl⟩

theorem cons_mem_register : c :: cs ∈ register.language ↔ c = 'r' ∧
    ((∃ a b, (a = '1' ∨ a = '2') ∧ b.isDigit = true ∧ cs = [a, b]) ∨
      (∃ a b, a = '3' ∧ (b = '0' ∨ b = '1') ∧ cs = [a, b]) ∨
      ∃ b, b.isDigit = true ∧ cs = [b]) := by
  rw [language, cons_mem_one_mul, decide_eq_true_eq, Language.mem_add, Language.mem_add, or_assoc,
    mem_one_mul_one, mem_one_mul_one, mem_one]
  simp only [Bool.or_eq_true, decide_eq_true_eq]

theorem nil_not_mem_one_mul {l : Language Char} : [] ∉ one p * l := by
  rw [Language.mem_mul]
  rintro ⟨_, ⟨_, -, rfl⟩, _, -, heq⟩
  cases heq

/-- A match is never empty. -/
theorem exists_cons_of_mem {p : Pattern} (h : cs ∈ p.language) : ∃ c more, cs = c :: more := by
  rcases cs with _ | ⟨c, more⟩
  · exfalso
    cases p with
    | skip => exact h.elim nil_not_mem_one_mul nil_not_mem_one_mul
    | comma =>
        obtain ⟨_, -, heq⟩ := mem_one.mp h
        cases heq
    | register => exact nil_not_mem_one_mul h
    | integer => exact nil_not_mem_one_mul h
    | word => exact nil_not_mem_one_mul h
  · exact ⟨c, more, rfl⟩

/-! ## Registers -/

/-- The names of the registers, digit by digit. -/
theorem registerNames_eq : registerNames =
    (digits.map fun b => String.ofList ['r', b]) ++
      (['1', '2'].flatMap fun a => digits.map fun b => String.ofList ['r', a, b]) ++
      ['0', '1'].map fun b => String.ofList ['r', '3', b] := by
  decide +kernel

/-- **The names of the registers** are the texts that match. -/
theorem mem_register_iff {cs : List Char} :
    cs ∈ register.language ↔ String.ofList cs ∈ registerNames := by
  simp only [registerNames_eq, List.mem_append, List.mem_flatMap, List.mem_map, mem_digits_iff,
    String.ofList_inj]
  constructor
  · intro h
    obtain ⟨c, cs, rfl⟩ := exists_cons_of_mem h
    obtain ⟨rfl, ⟨a, b, ha, hb, rfl⟩ | ⟨a, b, rfl, hb, rfl⟩ | ⟨b, hb, rfl⟩⟩ :=
      cons_mem_register.mp h
    · exact Or.inl (Or.inr ⟨a, by simpa using ha, b, hb, rfl⟩)
    · exact Or.inr ⟨b, by simpa using hb, rfl⟩
    · exact Or.inl (Or.inl ⟨b, hb, rfl⟩)
  · rintro ((⟨b, hb, rfl⟩ | ⟨a, ha, b, hb, rfl⟩) | ⟨b, hb, rfl⟩)
    · exact cons_mem_register.mpr ⟨rfl, Or.inr (Or.inr ⟨b, hb, rfl⟩)⟩
    · exact cons_mem_register.mpr ⟨rfl, Or.inl ⟨a, b, by simpa using ha, hb, rfl⟩⟩
    · exact cons_mem_register.mpr ⟨rfl, Or.inr (Or.inl ⟨'3', b, rfl, by simpa using hb, rfl⟩)⟩

/-- Registers are words. -/
theorem mem_word_of_mem_register (h : cs ∈ register.language) : cs ∈ word.language := by
  obtain ⟨c, cs, rfl⟩ := exists_cons_of_mem h
  have hdigit : ∀ {b : Char}, b.isDigit = true → isWordPart b = true := fun hb =>
    isWordPart_iff.mpr (Or.inr hb)
  obtain ⟨rfl, hcases⟩ := cons_mem_register.mp h
  refine cons_mem_word.mpr ⟨by decide, ?_⟩
  rcases hcases with ⟨a, b, rfl | rfl, hb, rfl⟩ | ⟨a, b, rfl, rfl | rfl, rfl⟩ | ⟨b, hb, rfl⟩
  · simpa using ⟨by decide, hdigit hb⟩
  · simpa using ⟨by decide, hdigit hb⟩
  · simp [isWordPart]
  · simp [isWordPart]
  · simpa using hdigit hb

end Pattern

/-! ## Matches and pieces -/

/-- Whether a character goes on with a match that began with the piece; gaps are matched together. -/
def Piece.runs : Piece → Char → Bool
  | .gap, c => isGap c
  | p, c => p.continues c

namespace Pattern

/-- The patterns that a text can match which begins with a piece. -/
def StartsWith : Pattern → Piece → Prop
  | .skip, p => p = .gap ∨ p = .comment
  | .register, p => p = .word
  | .integer, p => p = .integer
  | .word, p => p = .word
  | .comma, p => p = .comma

/-- The first character of a match tells the pattern, up to registers that are words. -/
theorem startsWith_of_mem {p : Pattern} {c : Char} {more : List Char}
    (h : c :: more ∈ p.language) : p.StartsWith (Piece.ofChar c) := by
  cases p with
  | skip =>
      rcases cons_mem_skip.mp h with ⟨hc, -⟩ | ⟨rfl, -⟩
      · exact Or.inl (Piece.ofChar_eq_iff.mpr hc)
      · exact Or.inr (by decide)
  | register => exact Piece.ofChar_eq_iff.mpr (cons_mem_word.mp (mem_word_of_mem_register h)).1
  | integer => exact Piece.ofChar_eq_iff.mpr (cons_mem_integer.mp h).1
  | word => exact Piece.ofChar_eq_iff.mpr (cons_mem_word.mp h).1
  | comma => exact Piece.ofChar_eq_iff.mpr (cons_mem_comma.mp h).1

/-- **What matches some pattern**: a character that is not stray, and what goes on with it. -/
theorem exists_mem_iff {c : Char} {more : List Char} : (∃ p : Pattern, c :: more ∈ p.language) ↔
    Piece.ofChar c ≠ .stray ∧ ∀ x ∈ more, (Piece.ofChar c).runs x = true := by
  constructor
  · rintro ⟨p, h⟩
    have hstart := startsWith_of_mem h
    cases p with
    | skip =>
        rcases cons_mem_skip.mp h with ⟨hc, hmore⟩ | ⟨rfl, hmore⟩
        · have hgap : Piece.ofChar c = .gap := Piece.ofChar_eq_iff.mpr hc
          rw [hgap]
          exact ⟨nofun, hmore⟩
        · refine ⟨by decide, fun x hx => ?_⟩
          rw [show Piece.ofChar ';' = .comment by decide]
          exact decide_eq_true fun heq => hmore (heq ▸ hx)
    | register =>
        rw [show Piece.ofChar c = .word from hstart]
        exact ⟨nofun, (cons_mem_word.mp (mem_word_of_mem_register h)).2⟩
    | integer =>
        rw [show Piece.ofChar c = .integer from hstart]
        exact ⟨nofun, (cons_mem_integer.mp h).2⟩
    | word =>
        rw [show Piece.ofChar c = .word from hstart]
        exact ⟨nofun, (cons_mem_word.mp h).2⟩
    | comma =>
        rw [show Piece.ofChar c = .comma from hstart, (cons_mem_comma.mp h).2]
        exact ⟨nofun, nofun⟩
  · rintro ⟨hstray, hmore⟩
    have hbegins := Piece.ofChar_eq_iff.mp (rfl : Piece.ofChar c = Piece.ofChar c)
    generalize Piece.ofChar c = k at hstray hmore hbegins
    cases k with
    | gap => exact ⟨.skip, cons_mem_skip.mpr (Or.inl ⟨hbegins, hmore⟩)⟩
    | comment =>
        refine ⟨.skip, cons_mem_skip.mpr (Or.inr ⟨hbegins, fun hnewline => ?_⟩)⟩
        have := hmore '\n' hnewline
        cases this
    | comma =>
        refine ⟨.comma, cons_mem_comma.mpr ⟨hbegins, List.eq_nil_iff_forall_not_mem.mpr ?_⟩⟩
        intro x hx
        cases hmore x hx
    | integer => exact ⟨.integer, cons_mem_integer.mpr ⟨hbegins, hmore⟩⟩
    | word => exact ⟨.word, cons_mem_word.mpr ⟨hbegins, hmore⟩⟩
    | stray => exact absurd rfl hstray

/-- A text matches one pattern, or it is a register and matches the pattern of words as well. -/
theorem eq_or_of_mem {p q : Pattern} {text : List Char} (hp : text ∈ p.language)
    (hq : text ∈ q.language) :
    p = q ∨ (p = .register ∧ q = .word) ∨ (p = .word ∧ q = .register) := by
  obtain ⟨c, more, rfl⟩ := exists_cons_of_mem hp
  have hpstart := startsWith_of_mem hp
  have hqstart := startsWith_of_mem hq
  generalize Piece.ofChar c = k at hpstart hqstart
  cases k <;> cases p <;> cases q <;> simp_all [StartsWith]

/-! ## Taking a match -/

variable {p : Pattern} {rest : List Char} {c : Char} {more : List Char}

/-- A match that is taken ends where nothing goes on with it. -/
theorem Takes.runs_eq_false (h : p.Takes (c :: more) rest) :
    ∀ x ∈ rest.head?, (Piece.ofChar c).runs x = false := by
  intro x hx
  obtain ⟨behind, rfl⟩ : ∃ behind, rest = x :: behind := by
    rcases rest with _ | ⟨y, behind⟩
    · cases hx
    · obtain rfl : y = x := Option.some.inj hx
      exact ⟨behind, rfl⟩
  by_contra hruns
  rw [Bool.not_eq_false] at hruns
  obtain ⟨hstray, hmore⟩ := exists_mem_iff.mp ⟨p, h.mem⟩
  obtain ⟨q, hq⟩ := exists_mem_iff.mpr
    ⟨hstray, List.forall_mem_append.mpr ⟨hmore, List.forall_mem_singleton.mpr hruns⟩⟩
  have hnil := h.longest q [x] behind rfl hq
  cases hnil

/-- A match that is taken is what its first character goes on with, if this begins no gap. -/
theorem Takes.ends (h : p.Takes (c :: more) rest) (hgap : Piece.ofChar c ≠ .gap) :
    Piece.Ends c more rest := by
  have hruns : (Piece.ofChar c).runs = (Piece.ofChar c).continues := by
    funext x
    generalize Piece.ofChar c = k at hgap
    cases k with
    | gap => exact absurd rfl hgap
    | _ => rfl
  refine ⟨?_, ?_⟩
  · rw [← hruns]
    exact (exists_mem_iff.mp ⟨p, h.mem⟩).2
  · rw [← hruns]
    exact h.runs_eq_false

/-- A match leaves the item of its piece, where registers are told from other words. -/
theorem Takes.item?_eq (h : p.Takes (c :: more) rest) (start stop : Nat) :
    (Piece.ofChar c).item? (String.ofList (c :: more)) start stop =
      p.item? (String.ofList (c :: more)) start stop := by
  have hstart := startsWith_of_mem h.mem
  cases p with
  | skip => rcases hstart with hstart | hstart <;> rw [hstart] <;> rfl
  | register =>
      rw [show Piece.ofChar c = .word from hstart, Piece.item?, Terminal.ofWord,
        if_pos (mem_register_iff.mp h.mem)]
      rfl
  | integer => rw [show Piece.ofChar c = .integer from hstart]; rfl
  | word =>
      have hregister : String.ofList (c :: more) ∉ registerNames := by
        intro hmem
        rcases h.preferred .register (mem_register_iff.mpr hmem) with heq | ⟨heq, -⟩
        · cases heq
        · cases heq
      rw [show Piece.ofChar c = .word from hstart, Piece.item?, Terminal.ofWord,
        if_neg hregister, Pattern.item?]
      split_ifs <;> rfl
  | comma => rw [show Piece.ofChar c = .comma from hstart]; rfl

theorem Takes.scan_eq (h : p.Takes (c :: more) rest) (start : Nat) :
    scan start (c :: more ++ rest) =
      (p.item? (String.ofList (c :: more)) start (start + byteSize (c :: more))).toList ++
      scan (start + byteSize (c :: more)) rest := by
  rw [← h.item?_eq]
  by_cases hgap : Piece.ofChar c = .gap
  · obtain ⟨-, hmore⟩ := exists_mem_iff.mp ⟨p, h.mem⟩
    rw [hgap] at hmore ⊢
    have hgaps : ∀ x ∈ c :: more, isGap x = true :=
      List.forall_mem_cons.mpr ⟨Piece.ofChar_eq_iff.mp hgap, hmore⟩
    exact scan_gaps hgaps start rest
  · exact scan_piece (h.ends hgap) start

/-- Where some pattern matches, one of them takes the longest match. -/
theorem exists_takes {c : Char} (h : Piece.ofChar c ≠ .stray) (cs : List Char) :
    ∃ p : Pattern, p.Takes (c :: cs.takeWhile (Piece.ofChar c).runs)
      (cs.dropWhile (Piece.ofChar c).runs) := by
  have hsome := exists_mem_iff.mpr ⟨h, fun x (hx : x ∈ cs.takeWhile (Piece.ofChar c).runs) =>
    List.mem_takeWhile_imp hx⟩
  have hlongest : ∀ (q : Pattern) (more behind : List Char),
      cs.dropWhile (Piece.ofChar c).runs = more ++ behind →
      c :: cs.takeWhile (Piece.ofChar c).runs ++ more ∈ q.language → more = [] := by
    intro q more behind hrest hq
    rcases more with _ | ⟨x, more⟩
    · rfl
    · have hhead := List.head?_dropWhile_not (Piece.ofChar c).runs cs
      have hx := (exists_mem_iff.mp ⟨q, hq⟩).2 x (by simp)
      rw [hrest] at hhead
      simp only [List.cons_append, List.head?_cons] at hhead
      rw [hhead] at hx
      cases hx
  by_cases hregister : c :: cs.takeWhile (Piece.ofChar c).runs ∈ register.language
  · refine ⟨.register, nofun, hregister, hlongest, fun q hq => ?_⟩
    by_cases heq : q = .register
    · exact Or.inl heq
    · exact Or.inr ⟨rfl, heq⟩
  · obtain ⟨p, hp⟩ := hsome
    refine ⟨p, nofun, hp, hlongest, fun q hq => ?_⟩
    rcases eq_or_of_mem hq hp with heq | ⟨rfl, -⟩ | ⟨-, rfl⟩
    · exact Or.inl heq
    · exact absurd hq hregister
    · exact absurd hp hregister

end Pattern

/-! ## Lines -/

theorem LongestMatches.eq_scan {start : Nat} {cs : List Char}
    {items : List (Except LexError Lexeme)} (h : LongestMatches start cs items) :
    items = scan start cs := by
  induction h with
  | done => rw [scan]
  | @take start p text rest items takes behind ih =>
      obtain ⟨c, more, rfl⟩ := Pattern.exists_cons_of_mem takes.mem
      rw [takes.scan_eq, ih]
  | @stray start c rest items unmatched behind ih =>
      have hstray : Piece.ofChar c = .stray := by
        by_contra h
        obtain ⟨p, hp⟩ := Pattern.exists_mem_iff.mpr ⟨h, List.forall_mem_nil _⟩
        exact unmatched p [c] rest rfl (List.cons_ne_nil c []) hp
      have ends : Piece.Ends c [] rest := by
        refine ⟨List.forall_mem_nil _, fun x _ => ?_⟩
        rw [hstray]
        rfl
      have hscan := scan_piece ends start
      rw [hstray] at hscan
      rw [ih]
      exact hscan.symm

theorem exists_longestMatches (start : Nat) (cs : List Char) :
    ∃ items, LongestMatches start cs items := by
  rcases cs with _ | ⟨c, cs⟩
  · exact ⟨[], .done⟩
  · by_cases hstray : Piece.ofChar c = .stray
    · obtain ⟨items, hitems⟩ := exists_longestMatches (start + c.utf8Size) cs
      refine ⟨_, .stray ?_ hitems⟩
      intro p text behind heq hne hmem
      obtain ⟨d, more, rfl⟩ := List.exists_cons_of_ne_nil hne
      obtain ⟨rfl, -⟩ := List.cons.inj heq
      exact (Pattern.exists_mem_iff.mp ⟨p, hmem⟩).1 hstray
    · obtain ⟨p, takes⟩ := Pattern.exists_takes hstray cs
      have hlength := (List.dropWhile_suffix (Piece.ofChar c).runs (l := cs)).length_le
      obtain ⟨items, hitems⟩ := exists_longestMatches
        (start + byteSize (c :: cs.takeWhile (Piece.ofChar c).runs))
        (cs.dropWhile (Piece.ofChar c).runs)
      have hmatches := LongestMatches.take takes hitems
      rw [List.cons_append, List.takeWhile_append_dropWhile] at hmatches
      exact ⟨_, hmatches⟩
termination_by cs.length

/-- **Lines are cut by longest matches.** -/
theorem longestMatches_iff {start : Nat} {cs : List Char}
    {items : List (Except LexError Lexeme)} :
    LongestMatches start cs items ↔ items = scan start cs := by
  constructor
  · exact LongestMatches.eq_scan
  · rintro rfl
    obtain ⟨items, hitems⟩ := exists_longestMatches start cs
    rwa [← hitems.eq_scan]

end ShiftReduce.Assembly
