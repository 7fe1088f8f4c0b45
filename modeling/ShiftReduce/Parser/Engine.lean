import ShiftReduce.Parser.Error
import ShiftReduce.Parser.Table
import ShiftReduce.PushBack
import ShiftReduce.Tree

/-!
# The parser

A shift/reduce parser for any table. It keeps the trees of what it has seen on a stack, each with
the state from which it was taken. To reduce, it takes the trees of a body off the stack, goes back
to the state below them and puts the new tree back in front of the input, from where it is shifted
like a token.

One move is a total function on configurations, `Config.step`. A table that does not come from a
grammar may keep the parser going for ever, so `ParsingTable.run` counts its moves.
-/

namespace ShiftReduce

variable {S R E : Type}

/-- What can stand in the stream of a parser: a tree, the end of the input, or a failure of the
token source. -/
inductive Input (S R E : Type) where
  | tree (t : Tree S R)
  | finish
  | failure (e : E)

/-- A parser between two moves. -/
structure Config (S R E : Type) where
  state : StateId
  /-- The trees seen so far, the last one first, each with the state before it. -/
  stack : List (StateId × Tree S R)
  stream : PushBack (List (Input S R E)) (Input S R E)

/-- The outcome of a move. -/
inductive Move (S R E : Type) where
  | next (c : Config S R E)
  | stop (result : Except (ParseError S R E) (Tree S R))

/-! ## Reducing and accepting -/

/-- Take the trees of a reversed body off the stack, which then become the children. The answer
holds the state below them; with nothing to take off this is the current state. -/
def popBody [DecidableEq S] (rule : R) (state : StateId) (stack : List (StateId × Tree S R))
    (children : List (Tree S R)) :
    List S → Except (Fault S R) (StateId × List (StateId × Tree S R) × List (Tree S R))
  | [] => .ok (state, stack, children)
  | x :: body =>
    match stack with
    | [] => .error (.stackUnderflow rule)
    | (below, t) :: stack =>
      if t.symbol = x then popBody rule below stack (t :: children) body
      else .error (.mismatch rule x t.symbol)

/-- Reduce a rule: the state to go on from, the rest of the stack, and the new tree. -/
def ParsingTable.reduce [DecidableEq S] (T : ParsingTable S R) (state : StateId)
    (stack : List (StateId × Tree S R)) (rule : R) :
    Except (Fault S R) (StateId × List (StateId × Tree S R) × Tree S R) :=
  match T.production? rule with
  | none => .error (.unknownRule rule)
  | some (head, body) =>
    match popBody rule state stack [] body.reverse with
    | .error fault => .error fault
    | .ok (state, stack, children) => .ok (state, stack, .node head rule children)

/-- Accept the input, which has to be at its end, as the one tree on the stack. -/
def ParsingTable.accept [DecidableEq S] (T : ParsingTable S R)
    (stack : List (StateId × Tree S R)) (atEnd : Bool) : Except (Fault S R) (Tree S R) :=
  if ¬ atEnd then .error .acceptedBeforeEnd
  else
    match stack with
    | [] => .error .acceptedNothing
    | [(_, root)] => if root.symbol = T.start then .ok root else .error (.wrongRoot root.symbol)
    | _ :: below => .error (.extraNodes below.length)

/-! ## Moves -/

namespace Config

variable [DecidableEq S]

/-- Go on with a symbol in view: that of a tree, or the end marker. -/
def act (T : ParsingTable S R) (c : Config S R E) (symbol : S) (seen : Option (Tree S R)) :
    Move S R E :=
  match T.action? c.state symbol with
  | none => .stop (.error (.unexpected c.state symbol (seen.map Tree.text)))
  | some (.shift next) =>
    match c.stream.next with
    | (some (.tree t), stream) => .next ⟨next, (c.state, t) :: c.stack, stream⟩
    | (some (.failure e), _) => .stop (.error (.source e))
    | (some .finish, _) => .stop (.error (.exhausted c.state))
    | (none, _) => .stop (.error (.exhausted c.state))
  | some (.reduce rule) =>
    match T.reduce c.state c.stack rule with
    | .error fault => .stop (.error (.internal c.state fault))
    | .ok (state, stack, t) => .next ⟨state, stack, c.stream.pushBack (.tree t)⟩
  | some .accept =>
    match T.accept c.stack seen.isNone with
    | .error fault => .stop (.error (.internal c.state fault))
    | .ok root => .stop (.ok root)

/-- One move. A token must carry a symbol that tokens may have; the end marker is not one. -/
def step (T : ParsingTable S R) (c : Config S R E) : Move S R E :=
  match c.stream.peek with
  | (none, _) => .stop (.error (.exhausted c.state))
  | (some (.failure e), _) => .stop (.error (.source e))
  | (some .finish, stream) => act T { c with stream := stream } T.endOfInput none
  | (some (.tree t), stream) =>
    if t.isLeaf ∧ (t.symbol = T.endOfInput ∨ ¬ T.isToken t.symbol) then
      .stop (.error (.unexpected c.state t.symbol (some t.text)))
    else act T { c with stream := stream } t.symbol (some t)

end Config

/-! ## Parses -/

/-- What the stream of a parser holds: the tokens or failures of a source, then the end. -/
def inputs (items : List (Except E (Token S))) : List (Input S R E) :=
  items.map (fun
    | .ok t => .tree (.leaf t)
    | .error e => .failure e) ++ [.finish]

/-- The parser before its first move. -/
def Config.initial (T : ParsingTable S R) (items : List (Except E (Token S))) : Config S R E :=
  ⟨T.initial, [], ⟨inputs items, []⟩⟩

namespace ParsingTable

variable [DecidableEq S]

/-- Go on for at most `fuel` moves; no answer if the parser is still going. -/
def run (T : ParsingTable S R) : Nat → Config S R E → Option (Except (ParseError S R E) (Tree S R))
  | 0, _ => none
  | fuel + 1, c =>
    match c.step T with
    | .stop result => some result
    | .next c => T.run fuel c

/-- Parse the items of a token source, in at most `fuel` moves. -/
def parse (T : ParsingTable S R) (fuel : Nat) (items : List (Except E (Token S))) :
    Option (Except (ParseError S R E) (Tree S R)) :=
  T.run fuel (.initial T items)

end ParsingTable

end ShiftReduce
