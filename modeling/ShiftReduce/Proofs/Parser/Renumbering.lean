import ShiftReduce.Parser.Engine
import ShiftReduce.Proofs.Tree

/-!
# Parsers with other names for rules

A parser hands on the names of rules, from the actions of its table to the nodes of its trees, and looks
at them only to ask for the head and the body. So if two tables are the same up to the names, a parser
makes the same moves with either, and what it gives is the same up to the names (`Renames.parse_eq`),
whether it is a tree or an error.
-/

namespace ShiftReduce

variable {S R R' E : Type}

/-! ## Other names in trees and results -/

namespace Tree

mutual
/-- The tree with other names for its rules. -/
def mapRule (f : R → R') : Tree S R → Tree S R'
  | .leaf t => .leaf t
  | .node x r ts => .node x (f r) (mapRuleAll f ts)

def mapRuleAll (f : R → R') : List (Tree S R) → List (Tree S R')
  | [] => []
  | t :: ts => t.mapRule f :: mapRuleAll f ts
end

theorem mapRuleAll_eq_map (f : R → R') (ts : List (Tree S R)) :
    mapRuleAll f ts = ts.map (mapRule f) := by
  induction ts with
  | nil => rw [mapRuleAll, List.map_nil]
  | cons t ts ih => rw [mapRuleAll, ih, List.map_cons]

theorem mapRule_node (f : R → R') (x : S) (r : R) (ts : List (Tree S R)) :
    (node x r ts).mapRule f = .node x (f r) (ts.map (mapRule f)) := by
  rw [mapRule, mapRuleAll_eq_map]

theorem symbol_mapRule (f : R → R') (t : Tree S R) : (t.mapRule f).symbol = t.symbol := by
  cases t with
  | leaf t => rw [mapRule, symbol, symbol]
  | node x r ts => rw [mapRule, symbol, symbol]

theorem isLeaf_mapRule (f : R → R') (t : Tree S R) : (t.mapRule f).isLeaf = t.isLeaf := by
  cases t with
  | leaf t => rw [mapRule, isLeaf, isLeaf]
  | node x r ts => rw [mapRule, isLeaf, isLeaf]

mutual
theorem leaves_mapRule (f : R → R') : ∀ t : Tree S R, (t.mapRule f).leaves = t.leaves
  | .leaf t => by rw [mapRule, leaves, leaves]
  | .node x r ts => by rw [mapRule, leaves, leaves, leavesAll_mapRuleAll f ts]

theorem leavesAll_mapRuleAll (f : R → R') :
    ∀ ts : List (Tree S R), leavesAll (mapRuleAll f ts) = leavesAll ts
  | [] => by rw [mapRuleAll, leavesAll, leavesAll]
  | t :: ts => by
      rw [mapRuleAll, leavesAll, leavesAll, leaves_mapRule f t, leavesAll_mapRuleAll f ts]
end

theorem text_mapRule (f : R → R') (t : Tree S R) : (t.mapRule f).text = t.text := by
  rw [text_eq_join, text_eq_join, leaves_mapRule]

end Tree

def Action.mapRule (f : R → R') : Action R → Action R'
  | .shift next => .shift next
  | .reduce rule => .reduce (f rule)
  | .accept => .accept

def Fault.mapRule (f : R → R') : Fault S R → Fault S R'
  | .unknownRule rule => .unknownRule (f rule)
  | .stackUnderflow rule => .stackUnderflow (f rule)
  | .mismatch rule expected found => .mismatch (f rule) expected found
  | .acceptedBeforeEnd => .acceptedBeforeEnd
  | .acceptedNothing => .acceptedNothing
  | .extraNodes count => .extraNodes count
  | .wrongRoot symbol => .wrongRoot symbol

def ParseError.mapRule (f : R → R') : ParseError S R E → ParseError S R' E
  | .source failure => .source failure
  | .unexpected state symbol text => .unexpected state symbol text
  | .internal state fault => .internal state (fault.mapRule f)
  | .exhausted state => .exhausted state

/-- A result with other names for the rules in it. -/
def mapResult (f : R → R') (result : Except (ParseError S R E) (Tree S R)) :
    Except (ParseError S R' E) (Tree S R') :=
  (result.map (Tree.mapRule f)).mapError (ParseError.mapRule f)

/-! ## Other names in configurations -/

def Input.mapRule (f : R → R') : Input S R E → Input S R' E
  | .tree t => .tree (t.mapRule f)
  | .finish => .finish
  | .failure e => .failure e

/-- The stack with other names for the rules in its trees. -/
def mapStack (f : R → R') (σ : List (StateId × Tree S R)) : List (StateId × Tree S R') :=
  σ.map fun (q, t) => (q, t.mapRule f)

/-- A stream over a list with all of its items changed. -/
def PushBack.map {α β : Type} (f : α → β) (s : PushBack (List α) α) : PushBack (List β) β :=
  ⟨s.source.map f, s.pending.map f⟩

def Config.mapRule (f : R → R') (c : Config S R E) : Config S R' E :=
  ⟨c.state, mapStack f c.stack, c.stream.map (Input.mapRule f)⟩

def Move.mapRule (f : R → R') : Move S R E → Move S R' E
  | .next c => .next (c.mapRule f)
  | .stop result => .stop (mapResult f result)

namespace PushBack

variable {α β : Type}

theorem peek_map (f : α → β) (s : PushBack (List α) α) :
    (s.map f).peek = (s.peek.1.map f, s.peek.2.map f) := by
  obtain ⟨source, pending⟩ := s
  rcases pending with _ | ⟨a, rest⟩
  · cases source <;> rfl
  · rfl

theorem next_map (f : α → β) (s : PushBack (List α) α) :
    (s.map f).next = (s.next.1.map f, s.next.2.map f) := by
  obtain ⟨source, pending⟩ := s
  rcases pending with _ | ⟨a, rest⟩
  · cases source <;> rfl
  · rfl

end PushBack

theorem map_inputs (f : R → R') (items : List (Except E (Token S))) :
    (inputs items : List (Input S R E)).map (Input.mapRule f) = inputs items := by
  rw [inputs, inputs, List.map_append, List.map_map]
  congr 1
  refine List.map_congr_left fun item _ => ?_
  cases item with
  | error e => rfl
  | ok t => exact congrArg Input.tree (Tree.mapRule.eq_1 f t)

/-! ## Tables that differ in names -/

/-- The second table is the first with other names for its rules. -/
structure ParsingTable.Renames (f : R → R') (T : ParsingTable S R) (T' : ParsingTable S R') :
    Prop where
  initial : T'.initial = T.initial
  endOfInput : T'.endOfInput = T.endOfInput
  start : T'.start = T.start
  isToken : T'.isToken = T.isToken
  action? : ∀ q x, T'.action? q x = (T.action? q x).map (Action.mapRule f)
  production? : ∀ r, T'.production? (f r) = T.production? r

variable [DecidableEq S] {T : ParsingTable S R} {T' : ParsingTable S R'} {f : R → R'}

theorem popBody_mapRule (f : R → R') (rule : R) (q : StateId) (σ : List (StateId × Tree S R))
    (ts : List (Tree S R)) (body : List S) :
    popBody (f rule) q (mapStack f σ) (ts.map (Tree.mapRule f)) body =
      ((popBody rule q σ ts body).map fun (q, σ, ts) =>
        (q, mapStack f σ, ts.map (Tree.mapRule f))).mapError (Fault.mapRule f) := by
  induction body generalizing q σ ts with
  | nil =>
      rw [popBody, popBody]
      rfl
  | cons x body ih =>
      rcases σ with _ | ⟨⟨p, t⟩, σ⟩
      · rfl
      · show (if (t.mapRule f).symbol = x then _ else _ : Except _ _) =
          ((if t.symbol = x then _ else _ : Except _ _).map _).mapError _
        rw [Tree.symbol_mapRule]
        split
        · exact ih p σ (t :: ts)
        · rfl

namespace ParsingTable.Renames

theorem reduce_eq (h : T.Renames f T') (q : StateId) (σ : List (StateId × Tree S R)) (rule : R) :
    T'.reduce q (mapStack f σ) (f rule) =
      ((T.reduce q σ rule).map fun (q, σ, t) =>
        (q, mapStack f σ, t.mapRule f)).mapError (Fault.mapRule f) := by
  rw [reduce, reduce, h.production?]
  rcases T.production? rule with _ | ⟨head, body⟩
  · rfl
  · dsimp only
    have hpop := popBody_mapRule f rule q σ [] body.reverse
    rw [List.map_nil] at hpop
    rw [hpop]
    rcases popBody rule q σ [] body.reverse with fault | ⟨q', σ', ts⟩
    · rfl
    · show Except.ok (q', mapStack f σ', _) = Except.ok (q', mapStack f σ', _)
      rw [Tree.mapRule_node]

theorem accept_eq (h : T.Renames f T') (σ : List (StateId × Tree S R)) (atEnd : Bool) :
    T'.accept (mapStack f σ) atEnd =
      ((T.accept σ atEnd).map (Tree.mapRule f)).mapError (Fault.mapRule f) := by
  unfold accept
  split
  · rfl
  · rcases σ with _ | ⟨⟨p, root⟩, _ | ⟨below, rest⟩⟩
    · rfl
    · show (if (root.mapRule f).symbol = T'.start then _ else _ : Except _ _) = _
      rw [Tree.symbol_mapRule, h.start]
      dsimp only
      split
      · rfl
      · rfl
    · show Except.error (Fault.extraNodes (mapStack f (below :: rest)).length) = _
      rw [mapStack, List.length_map]
      rfl

theorem act_eq (h : T.Renames f T') (c : Config S R E) (x : S) (seen : Option (Tree S R)) :
    (c.mapRule f).act T' x (seen.map (Tree.mapRule f)) = (c.act T x seen).mapRule f := by
  have haction : T'.action? (c.mapRule f).state x = (T.action? c.state x).map (Action.mapRule f) :=
    h.action? c.state x
  unfold Config.act
  rw [haction]
  rcases T.action? c.state x with _ | next | rule | _
  · have htext : (seen.map (Tree.mapRule f)).map Tree.text = seen.map Tree.text := by
      rw [Option.map_map]
      exact congrArg (seen.map ·) (funext (Tree.text_mapRule f))
    simp only [Option.map_none]
    rw [htext]
    rfl
  · have hnext : (c.mapRule f).stream.next =
        (c.stream.next.1.map (Input.mapRule f), c.stream.next.2.map (Input.mapRule f)) :=
      PushBack.next_map (Input.mapRule f) c.stream
    simp only [Option.map_some, Action.mapRule]
    rw [hnext]
    rcases c.stream.next with ⟨_ | (t | _ | e), stream⟩
    · rfl
    · rfl
    · rfl
    · rfl
  · have hreduce : T'.reduce (c.mapRule f).state (c.mapRule f).stack (f rule) = _ :=
      h.reduce_eq c.state c.stack rule
    simp only [Option.map_some, Action.mapRule]
    rw [hreduce]
    rcases T.reduce c.state c.stack rule with fault | ⟨q, σ, t⟩
    · rfl
    · rfl
  · have haccept : T'.accept (c.mapRule f).stack seen.isNone = _ :=
      h.accept_eq c.stack seen.isNone
    simp only [Option.map_some, Action.mapRule, Option.isNone_map]
    rw [haccept]
    rcases T.accept c.stack seen.isNone with fault | root
    · rfl
    · rfl

/-- **One move.** What is done with other names is what is done, with other names. -/
theorem step_eq (h : T.Renames f T') (c : Config S R E) :
    (c.mapRule f).step T' = (c.step T).mapRule f := by
  have hpeek : (c.mapRule f).stream.peek =
      (c.stream.peek.1.map (Input.mapRule f), c.stream.peek.2.map (Input.mapRule f)) :=
    PushBack.peek_map (Input.mapRule f) c.stream
  unfold Config.step
  rw [hpeek]
  rcases c.stream.peek with ⟨_ | (t | _ | e), stream⟩
  · rfl
  · have hact := h.act_eq { c with stream := stream } t.symbol (some t)
    have hrefuse : ((t.mapRule f).isLeaf ∧
        ((t.mapRule f).symbol = T'.endOfInput ∨ ¬ T'.isToken (t.mapRule f).symbol)) ↔
        t.isLeaf ∧ (t.symbol = T.endOfInput ∨ ¬ T.isToken t.symbol) := by
      rw [t.isLeaf_mapRule, t.symbol_mapRule, h.endOfInput, h.isToken]
    simp only [Option.map_some, Input.mapRule]
    by_cases hleaf : t.isLeaf ∧ (t.symbol = T.endOfInput ∨ ¬ T.isToken t.symbol)
    · rw [if_pos hleaf, if_pos (hrefuse.mpr hleaf), t.symbol_mapRule, t.text_mapRule]
      rfl
    · rw [if_neg hleaf, if_neg ((not_congr hrefuse).mpr hleaf), t.symbol_mapRule]
      exact hact
  · simp only [Option.map_some, Input.mapRule]
    rw [h.endOfInput]
    exact h.act_eq { c with stream := stream } T.endOfInput none
  · rfl

theorem run_eq (h : T.Renames f T') (fuel : Nat) (c : Config S R E) :
    T'.run fuel (c.mapRule f) = (T.run fuel c).map (mapResult f) := by
  induction fuel generalizing c with
  | zero => rfl
  | succ fuel ih =>
      rw [run, run, h.step_eq]
      cases c.step T with
      | stop result => rfl
      | next d => exact ih d

/-- **A parse gives the same up to the names of rules**, in as many moves. -/
theorem parse_eq (h : T.Renames f T') (fuel : Nat) (items : List (Except E (Token S))) :
    T'.parse fuel items = (T.parse fuel items).map (mapResult f) := by
  have hinitial : (Config.initial T items).mapRule f = Config.initial T' items := by
    rw [Config.mapRule, Config.initial, Config.initial, PushBack.map, map_inputs, h.initial]
    rfl
  rw [parse, parse, ← hinitial, h.run_eq]

end ParsingTable.Renames

end ShiftReduce
