import ShiftReduce.Assembly.Operation

/-!
# Lexemes

A line of assembly code is cut into pieces. The first character tells what a piece is, and the
piece goes on as long as the characters extend it. Blanks and comments are dropped; a word is the
name of a register or of an operation, or else an identifier; a character that begins no piece is
an error of its own, after which the cutting goes on.

Places in a line count the bytes of its UTF-8 form.
-/

namespace ShiftReduce.Assembly

/-- What a lexeme can be. -/
inductive Terminal where
  | operation
  | register
  | integer
  | identifier
  | comma
deriving DecidableEq, Repr

namespace Terminal

def all : List Terminal := [.operation, .register, .integer, .identifier, .comma]

def name : Terminal → String
  | .operation => "Operation"
  | .register => "Register"
  | .integer => "Integer"
  | .identifier => "Identifier"
  | .comma => "Comma"

end Terminal

/-- A piece of a line that counts, from byte `start` up to byte `stop`. -/
structure Lexeme where
  terminal : Terminal
  text : String
  start : Nat
  stop : Nat
deriving DecidableEq, Repr

/-- A character that begins no piece; the columns of a line count from 1. -/
structure LexError where
  text : String
  column : Nat
deriving DecidableEq, Repr

def LexError.message (e : LexError) : String :=
  "unrecognized input `" ++ e.text ++ "' at column " ++ toString e.column

/-! ## Words -/

/-- Whether the character separates pieces without being part of one. -/
def isGap (c : Char) : Bool :=
  c = ' ' || c = '\t' || c = '\r' || c = '\n' || c = '\x0c'

def isWordStart (c : Char) : Bool := c = '_' || c.isAlpha

def isWordPart (c : Char) : Bool := c = '_' || c.isAlphanum

/-- How many registers there are. -/
def registerCount : Nat := 32

/-- The names of the registers: `r` and a number without needless zeros. -/
def registerNames : List String := (List.range registerCount).map fun i => "r" ++ toString i

/-- What a word is. -/
def Terminal.ofWord (word : String) : Terminal :=
  if word ∈ registerNames then .register
  else if (Operation.named? word).isSome then .operation
  else .identifier

/-! ## Pieces -/

inductive Piece where
  | gap
  | comment
  | comma
  | integer
  | word
  | stray
deriving DecidableEq, Repr

namespace Piece

/-- What a piece is that begins with the character. -/
def ofChar (c : Char) : Piece :=
  if isGap c then .gap
  else if c = ';' then .comment
  else if c = ',' then .comma
  else if c.isDigit then .integer
  else if isWordStart c then .word
  else .stray

/-- Whether a character goes on with a piece. -/
def continues : Piece → Char → Bool
  | .gap, _ => false
  | .comment, c => c ≠ '\n'
  | .comma, _ => false
  | .integer, c => c.isDigit
  | .word, c => isWordPart c
  | .stray, _ => false

/-- What a piece leaves behind, given its text and its place. -/
def item? (p : Piece) (text : String) (start stop : Nat) : Option (Except LexError Lexeme) :=
  match p with
  | .gap => none
  | .comment => none
  | .comma => some (.ok ⟨.comma, text, start, stop⟩)
  | .integer => some (.ok ⟨.integer, text, start, stop⟩)
  | .word => some (.ok ⟨.ofWord text, text, start, stop⟩)
  | .stray => some (.error ⟨text, start + 1⟩)

end Piece

/-! ## Lines -/

/-- The size of a text in bytes. -/
def byteSize (cs : List Char) : Nat := cs.foldr (fun c n => c.utf8Size + n) 0

/-- The items of a text that begins at a given byte of its line. -/
def scan (start : Nat) : List Char → List (Except LexError Lexeme)
  | [] => []
  | c :: cs =>
    let piece := Piece.ofChar c
    let text := c :: cs.takeWhile piece.continues
    let stop := start + byteSize text
    (piece.item? (String.ofList text) start stop).toList ++
      scan stop (cs.dropWhile piece.continues)
termination_by cs => cs.length
decreasing_by
  have := (List.dropWhile_suffix (Piece.ofChar c).continues (l := cs)).length_le
  simp only [List.length_cons]
  omega

/-- The items of a line, in their order. -/
def lex (line : String) : List (Except LexError Lexeme) := scan 0 line.toList

example : (lex "  jiz r2,016 ; go").map (·.toOption.map fun l => (l.terminal, l.start)) =
    [some (.operation, 2), some (.register, 6), some (.comma, 8), some (.integer, 9)] := by
  decide +kernel
example : (lex "é1x r32").map (fun
      | .ok l => l.text ++ ":" ++ l.terminal.name
      | .error e => e.message) =
    ["unrecognized input `é' at column 1", "1:Integer", "x:Identifier", "r32:Identifier"] := by
  decide +kernel

end ShiftReduce.Assembly
