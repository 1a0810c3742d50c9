import Calculator.Proofs.Outcome
import Calculator.Proofs.Source.Reading
import Mathlib

/-!
# Operators between operands

A chain is an operand and, behind it, operators each with its right operand. The reading of an
expression goes through a chain from the left and looks one level deeper for every right operand.
What it makes of the chain is nevertheless the tree that is given without any order of steps: the
outermost operator is the last one among those that bind least tightly, and what is on its two sides
is grouped in the same way. The operators of a right operand bind more tightly than the one in front
of it. So the levels are as few as the precedences, however long the chain is.
-/

namespace Calculator.Source

/-! ## Chains -/

/-- The operator between operands that a token stands for. -/
def infixedOf (token : Token) : Option Command :=
  let command :=
    match token with
    | .operator command => some command
    | .name name => Command.lookup? name
    | _ => none
  command.filter fun command => command.fixity == .infixed

/-- An operand of one token: a number, or a name that is no command. -/
structure Atom where
  token : Token.Spanned
  plain : (∃ text, token.token = .number text) ∨
    ∃ name, token.token = .name name ∧ Command.lookup? name = none

/-- The items that an operand of one token is read as. -/
def Atom.items (settings : Preferences) (atom : Atom) : Outcome (List Value) :=
  match atom.token.token with
  | .number text =>
    if isPlainNumber text then .ok [.real (.ofInt (Digits.read text.toList))]
    else
      match Decimal.literal? text with
      | some value => .ok [.real (.ofDecimal value settings.precision)]
      | none => .error (.invalidNumber text atom.token.span)
  | .name name => .ok [.symbol ⟨name⟩]
  | _ => .ok []

/-- An operator between operands, other than one that binds, and its right operand. -/
structure Link where
  operator : Token.Spanned
  command : Command
  denotes : infixedOf operator.token = some command
  noBinding : command ≠ .whereBound
  operand : Atom

/-- How tightly the operator binds. -/
def Link.precedence (link : Link) : Precedence := link.command.precedence

/-- The tokens of operators with their right operands. -/
def tokensOf (links : List Link) : List Token.Spanned :=
  links.flatMap fun link => [link.operator, link.operand.token]

/-- The last operand of a chain. -/
def lastOperand (first : Atom) (links : List Link) : Atom :=
  (links.getLast?.map Link.operand).getD first

/-- The operators up to the first one that binds less tightly than a minimum. -/
def tight (minimum : Precedence) (links : List Link) : List Link :=
  links.takeWhile fun link => minimum ≤ link.precedence

/-- The operators from the first one on that binds less tightly than a minimum. -/
def loose (minimum : Precedence) (links : List Link) : List Link :=
  links.dropWhile fun link => minimum ≤ link.precedence

/-- No expression goes on with the tokens behind it. -/
def Ends (follow : List Token.Spanned) : Prop :=
  ∀ next ∈ follow.head?, mayContinue next.token = false

/-! ## Trees -/

/-- The tree of a chain. -/
inductive Grouping where
  | operand (atom : Atom)
  | operation (command : Command) (left right : Grouping)

namespace Grouping

/-- The items of a tree in postfix order, or the fault of its first operand that has one. -/
def items (settings : Preferences) : Grouping → Outcome (List Value)
  | .operand atom => atom.items settings
  | .operation command left right => do
    return (← left.items settings) ++ (← right.items settings) ++ [.command command]

/-- The levels on which a tree is read: a right operand is one level deeper. -/
def levels : Grouping → ℕ
  | .operand _ => 1
  | .operation _ left right => max left.levels (right.levels + 1)

end Grouping

/-- The tree of a chain: the outermost operator is the last one among those that bind least tightly.
-/
inductive Groups : Atom → List Link → Grouping → Prop
  | operand (first : Atom) : Groups first [] (.operand first)
  | operation {first : Atom} {before after : List Link} {link : Link} {left right : Grouping}
      (least : ∀ other ∈ before, link.precedence ≤ other.precedence)
      (last : ∀ other ∈ after, link.precedence < other.precedence)
      (leftGroups : Groups first before left) (rightGroups : Groups link.operand after right) :
      Groups first (before ++ link :: after) (.operation link.command left right)

/-- In a chain with operators one of them is the last one among those that bind least tightly. -/
theorem exists_last_least {links : List Link} (some : links ≠ []) :
    ∃ before link after, links = before ++ link :: after ∧
      (∀ other ∈ before, link.precedence ≤ other.precedence) ∧
      ∀ other ∈ after, link.precedence < other.precedence := by
  induction links with
  | nil => exact absurd rfl some
  | cons link others inductionHypothesis =>
    by_cases none : others = []
    · subst none
      exact ⟨[], link, [], rfl, List.forall_mem_nil _, List.forall_mem_nil _⟩
    · obtain ⟨before, root, after, rfl, least, last⟩ := inductionHypothesis none
      by_cases looser : link.precedence < root.precedence
      · refine ⟨[], link, before ++ root :: after, rfl, List.forall_mem_nil _, ?_⟩
        intro other among
        rcases List.mem_append.mp among with front | behind
        · exact looser.trans_le (least other front)
        · rcases List.mem_cons.mp behind with rfl | back
          · exact looser
          · exact looser.trans (last other back)
      · exact ⟨link :: before, root, after, rfl,
          List.forall_mem_cons.mpr ⟨Nat.le_of_not_lt looser, least⟩, last⟩

/-- Every chain has a tree. -/
theorem exists_groups (first : Atom) (links : List Link) : ∃ tree, Groups first links tree := by
  induction count : links.length using Nat.strong_induction_on generalizing first links with
  | _ length inductionHypothesis =>
    by_cases none : links = []
    · subst none
      exact ⟨_, .operand first⟩
    · obtain ⟨before, link, after, rfl, least, last⟩ := exists_last_least none
      simp only [List.length_append, List.length_cons] at count
      obtain ⟨left, leftGroups⟩ := inductionHypothesis before.length (by omega) first before rfl
      obtain ⟨right, rightGroups⟩ :=
        inductionHypothesis after.length (by omega) link.operand after rfl
      exact ⟨_, .operation least last leftGroups rightGroups⟩

/-- The last one among the operators that bind least tightly is in only one place. -/
theorem last_least_unique {before before' after after' : List Link} {link link' : Link}
    (same : before ++ link :: after = before' ++ link' :: after')
    (least : ∀ other ∈ before, link.precedence ≤ other.precedence)
    (last : ∀ other ∈ after, link.precedence < other.precedence)
    (least' : ∀ other ∈ before', link'.precedence ≤ other.precedence)
    (last' : ∀ other ∈ after', link'.precedence < other.precedence) :
    before = before' ∧ link = link' ∧ after = after' := by
  rcases List.append_eq_append_iff.mp same with ⟨between, front, back⟩ | ⟨between, front, back⟩
  · cases between with
    | nil =>
      obtain ⟨rfl, rfl⟩ := List.cons.inj back
      exact ⟨by simpa using front.symm, rfl, rfl⟩
    | cons other between =>
      obtain ⟨rfl, rfl⟩ := List.cons.inj back
      have looser := last link' (by simp)
      have tighter := least' link (by simp [front])
      exact absurd looser (Nat.not_lt_of_le tighter)
  · cases between with
    | nil =>
      obtain ⟨rfl, rfl⟩ := List.cons.inj back
      exact ⟨by simpa using front, rfl, rfl⟩
    | cons other between =>
      obtain ⟨rfl, rfl⟩ := List.cons.inj back
      have looser := last' link (by simp)
      have tighter := least link' (by simp [front])
      exact absurd looser (Nat.not_lt_of_le tighter)

/-- What a tree is of says what its outermost operator is. -/
theorem groups_iff {first : Atom} {links : List Link} {tree : Grouping} :
    Groups first links tree ↔ (links = [] ∧ tree = .operand first) ∨
      ∃ before link after left right, links = before ++ link :: after ∧
        (∀ other ∈ before, link.precedence ≤ other.precedence) ∧
        (∀ other ∈ after, link.precedence < other.precedence) ∧
        Groups first before left ∧ Groups link.operand after right ∧
        tree = .operation link.command left right := by
  constructor
  · intro groups
    cases groups with
    | operand => exact .inl ⟨rfl, rfl⟩
    | operation least last leftGroups rightGroups =>
      exact .inr ⟨_, _, _, _, _, rfl, least, last, leftGroups, rightGroups, rfl⟩
  · rintro (⟨rfl, rfl⟩ | ⟨before, link, after, left, right, rfl, least, last, leftGroups,
      rightGroups, rfl⟩)
    · exact .operand first
    · exact .operation least last leftGroups rightGroups

/-- A chain has only one tree. -/
theorem Groups.unique {first : Atom} {links : List Link} {tree other : Grouping}
    (groups : Groups first links tree) (others : Groups first links other) : tree = other := by
  induction groups generalizing other with
  | operand first =>
    rcases groups_iff.mp others with ⟨-, rfl⟩ | ⟨before, link, after, _, _, same, _⟩
    · rfl
    · simp at same
  | operation least last _ _ leftUnique rightUnique =>
    rcases groups_iff.mp others with
      ⟨same, -⟩ | ⟨before, link, after, left, right, same, least', last', leftGroups, rightGroups, rfl⟩
    · simp at same
    · obtain ⟨rfl, rfl, rfl⟩ := last_least_unique same least last least' last'
      rw [leftUnique leftGroups, rightUnique rightGroups]

/-- The precedences of operators. -/
def precedences (links : List Link) : Finset Precedence := (links.map Link.precedence).toFinset

/-- A tree has at most one more level than there are precedences. -/
theorem Groups.levels_le {first : Atom} {links : List Link} {tree : Grouping}
    (groups : Groups first links tree) : tree.levels ≤ (precedences links).card + 1 := by
  induction groups with
  | operand => simp [Grouping.levels]
  | @operation _ before after link _ _ least last _ _ leftLevels rightLevels =>
    have whole : precedences (before ++ link :: after) =
        precedences before ∪ insert link.precedence (precedences after) := by
      simp [precedences]
    have fresh : link.precedence ∉ precedences after := by
      intro among
      obtain ⟨other, listed, same⟩ := List.mem_map.mp (List.mem_toFinset.mp among)
      exact (last other listed).ne' same
    have left := Finset.card_le_card (whole ▸ Finset.subset_union_left :
      precedences before ⊆ precedences (before ++ link :: after))
    have right := Finset.card_le_card (whole ▸ Finset.subset_union_right :
      insert link.precedence (precedences after) ⊆ precedences (before ++ link :: after))
    rw [Finset.card_insert_of_notMem fresh] at right
    exact max_le (leftLevels.trans (Nat.succ_le_succ left))
      (Nat.succ_le_succ (rightLevels.trans right))

/-- The precedences of the operators between operands, apart from the one that binds. -/
theorem precedence_mem {command : Command} (fixity : command.fixity = .infixed)
    (noBinding : command ≠ .whereBound) :
    command.precedence ∈ ({3, 4, 5, 6, 7, 9} : Finset Precedence) := by
  revert fixity noBinding
  cases command <;> decide

/-- What a token stands for between operands stands between operands. -/
theorem fixity_of_infixedOf {token : Token} {command : Command}
    (denotes : infixedOf token = some command) : command.fixity = .infixed := by
  have kept := (Option.filter_eq_some_iff.mp denotes).2
  simpa using kept

/-- Operators between operands have at most six precedences. -/
theorem card_precedences_le (links : List Link) : (precedences links).card ≤ 6 := by
  have among : precedences links ⊆ {3, 4, 5, 6, 7, 9} := by
    intro precedence found
    obtain ⟨link, _, rfl⟩ := List.mem_map.mp (List.mem_toFinset.mp found)
    exact precedence_mem (fixity_of_infixedOf link.denotes) link.noBinding
  exact (Finset.card_le_card among).trans (by decide)

/-! ## Reading a chain -/

/-- Nothing of what follows belongs to an operand of one token in front of it. -/
def Apart (rest : List Token.Spanned) : Prop :=
  ∀ next ∈ rest.head?, next.token ≠ .underscore ∧
    ∀ command, next.token = .operator command → command.fixity ≠ .postfixed

/-- The operator of a link belongs to no operand in front of it, and neither does what ends an
expression. -/
theorem apart_tokensOf (links : List Link) {follow : List Token.Spanned} (ends : Ends follow) :
    Apart (tokensOf links ++ follow) := by
  cases links with
  | nil =>
    intro next first
    have stops := ends next first
    constructor
    · intro same
      rw [same] at stops
      cases stops
    · intro command same
      rw [same] at stops
      cases stops
  | cons link links =>
    rintro next ⟨rfl⟩
    obtain ⟨⟨token, span⟩, command, denotes, -, -⟩ := link
    have infixed := fixity_of_infixedOf denotes
    constructor
    · intro same
      cases same.symm ▸ denotes
    · intro other same
      obtain rfl : token = .operator other := same
      have found : (some other).filter (fun command => command.fixity == .infixed) = some command :=
        denotes
      obtain rfl : other = command := Option.some.inj (Option.filter_eq_some_iff.mp found).1
      rw [infixed]
      decide

variable {deeper : Deeper} {line : Line}

/-- No operator is behind an operand that nothing belongs to. -/
theorem postfixedFrom_apart (passed : Option ℕ) {rest : List Token.Spanned} (apart : Apart rest) :
    postfixedFrom passed rest = ([], ⟨passed, rest⟩) := by
  cases rest with
  | nil => rfl
  | cons next rest =>
    obtain ⟨token, span⟩ := next
    have plain := (apart _ rfl).2
    cases token with
    | operator command => simp [postfixedFrom, plain command rfl]
    | _ => rfl

/-- A value that nothing belongs to has no unit. -/
theorem unitSuffix_apart (value : Value) (passed : Option ℕ) {rest : List Token.Spanned}
    (apart : Apart rest) :
    unitSuffix deeper value line ⟨passed, rest⟩ = .ok (value, ⟨passed, rest⟩) := by
  have refused : (advanceAdjacent .underscore : Reading Bool) line ⟨passed, rest⟩ =
      .ok (false, ⟨passed, rest⟩) := by
    cases rest with
    | nil => cases passed <;> rfl
    | cons next rest =>
      have other : (some next.token == some Token.underscore) = false := by
        simpa using (apart _ rfl).1
      cases passed with
      | none => rfl
      | some stop =>
        change (if (next.span.offset == stop && some next.token == some Token.underscore) = true
          then _ else _ : Reading Bool) line _ = _
        rw [other, Bool.and_false]
        rfl
  change ((advanceAdjacent .underscore : Reading Bool) line ⟨passed, rest⟩ >>= _) = _
  rw [refused]
  rfl

/-- An operand of one token is read as such. -/
theorem primary_atom (atom : Atom) (passed : Option ℕ) {rest : List Token.Spanned}
    (apart : Apart rest) :
    primary deeper line ⟨passed, atom.token :: rest⟩ =
      (atom.items line.settings).map fun items => (items, ⟨some atom.token.span.stop, rest⟩) := by
  obtain ⟨⟨token, span⟩, plain⟩ := atom
  have behind := postfixedFrom_apart (some span.stop) apart
  have reads : operand deeper line ⟨passed, ⟨token, span⟩ :: rest⟩ =
      (Atom.items line.settings ⟨⟨token, span⟩, plain⟩).map
        fun items => (items, ⟨some span.stop, rest⟩) := by
    rcases plain with ⟨text, same⟩ | ⟨name, same, free⟩
    · obtain rfl : token = .number text := same
      change (number text span line ⟨some span.stop, rest⟩ >>= fun read =>
        unitSuffix deeper (.real read.1) line read.2 >>= fun read =>
          Except.ok ([read.1], read.2)) = _
      unfold number Atom.items
      dsimp only
      split
      · change (unitSuffix deeper _ line ⟨some span.stop, rest⟩ >>= _) = _
        rw [unitSuffix_apart _ _ apart]
        rfl
      · cases Decimal.literal? text with
        | none => rfl
        | some value =>
          change (unitSuffix deeper _ line ⟨some span.stop, rest⟩ >>= _) = _
          rw [unitSuffix_apart _ _ apart]
          rfl
    · obtain rfl : token = .name name := same
      change named deeper name span line ⟨some span.stop, rest⟩ = _
      simp only [named, free]
      rfl
  change (operand deeper line ⟨passed, ⟨token, span⟩ :: rest⟩ >>= fun read =>
    Except.ok (read.1 ++ (postfixedFrom read.2.passed read.2.rest).1,
      (postfixedFrom read.2.passed read.2.rest).2)) = _
  rw [reads]
  cases Atom.items line.settings ⟨⟨token, span⟩, plain⟩ with
  | error fault => rfl
  | ok items =>
    change Except.ok (items ++ (postfixedFrom (some span.stop) rest).1,
      (postfixedFrom (some span.stop) rest).2) = _
    rw [behind, List.append_nil]
    rfl

/-- What comes of reading a tree within a number of levels: its items, with the reading stopped at a
place, if there are as many levels as the tree has, and otherwise either the same or the fault of a
construct that lies too deep. -/
structure Yields (levels : ℕ) (settings : Preferences) (tree : Grouping) (stop : Cursor)
    (outcome : Outcome (List Value × Cursor)) : Prop where
  enough : tree.levels ≤ levels → outcome = (tree.items settings).map fun items => (items, stop)
  always : (outcome = (tree.items settings).map fun items => (items, stop)) ∨
    ∃ span, outcome = .error (.nestingTooDeep span)

/-- The place behind a chain with some tokens to follow. -/
def behind (first : Atom) (links : List Link) (rest : List Token.Spanned) : Cursor :=
  ⟨some (lastOperand first links).token.span.stop, rest⟩

/-- A reader makes of every chain, up to operators that bind less tightly than a minimum, the tree
of the chain up to there, within a number of levels. -/
def Climbs (levels : ℕ) (line : Line) (follow : List Token.Spanned)
    (read : Precedence → Reading (List Value)) : Prop :=
  ∀ (minimum : Precedence) (first : Atom) (links : List Link) (passed : Option ℕ),
    ∃ tree, Groups first (tight minimum links) tree ∧
      Yields levels line.settings tree
        (behind first (tight minimum links) (tokensOf (loose minimum links) ++ follow))
        (read minimum line ⟨passed, first.token :: (tokensOf links ++ follow)⟩)

variable {levels : ℕ} {follow : List Token.Spanned}

/-- The last operand of a chain is that of its last part. -/
theorem lastOperand_append (first : Atom) (before after : List Link) (link : Link) :
    lastOperand first (before ++ link :: after) = lastOperand link.operand after := by
  cases after with
  | nil => simp [lastOperand]
  | cons next after => simp [lastOperand, List.getLast?_cons]

/-- The loop that reads what is left of a chain, behind what has been made of the part in front. -/
def further (deeper : Deeper) (line : Line) (minimum : Precedence) (steps : ℕ)
    (front : Outcome (List Value)) (cursor : Cursor) : Outcome (List Value × Cursor) :=
  front >>= fun items => climbWithin deeper minimum steps line cursor >>= fun others =>
    .ok (items ++ others.1, others.2)

/-- The loop stops in front of the end of an expression. -/
theorem climbWithin_ends (minimum : Precedence) (steps : ℕ) (passed : Option ℕ)
    (ends : Ends follow) :
    climbWithin deeper minimum steps line ⟨passed, follow⟩ = .ok ([], ⟨passed, follow⟩) := by
  cases steps with
  | zero => rfl
  | succ steps =>
    cases follow with
    | nil => rfl
    | cons next follow =>
      obtain ⟨token, span⟩ := next
      have stops := ends _ rfl
      cases token <;> first | rfl | cases stops

/-- One reading behind another begins where that one stopped. -/
theorem bind_run {First Result : Type} (reading : Reading First) (next : First → Reading Result)
    (line : Line) (cursor : Cursor) :
    (reading >>= next) line cursor =
      reading line cursor >>= fun read => next read.1 line read.2 := rfl

/-- The operator that comes next is seen without being passed over. -/
theorem infixed?_cons (next : Token.Spanned) (passed : Option ℕ) (rest : List Token.Spanned) :
    (infixed? : Reading (Option Command)) line ⟨passed, next :: rest⟩ =
      .ok (infixedOf next.token, ⟨passed, next :: rest⟩) := by
  obtain ⟨token, span⟩ := next
  cases token <;> rfl

/-- The loop stops in front of an operator that binds less tightly than the minimum. -/
theorem climbWithin_loose {minimum : Precedence} (steps : ℕ) (passed : Option ℕ) {link : Link}
    (loose : link.precedence < minimum) (rest : List Token.Spanned) :
    climbWithin deeper minimum steps line ⟨passed, link.operator :: rest⟩ =
      .ok ([], ⟨passed, link.operator :: rest⟩) := by
  cases steps with
  | zero => rfl
  | succ steps =>
    have below : link.command.precedence < minimum := loose
    rw [climbWithin, bind_run, infixed?_cons, link.denotes, Outcome.ok_bind]
    simp only [if_pos below]
    rfl

/-- The loop goes on with an operator that binds tightly enough and its right operand. -/
theorem climbWithin_tight {minimum : Precedence} (steps : ℕ) (passed : Option ℕ) {link : Link}
    (tight : minimum ≤ link.precedence) (rest : List Token.Spanned) :
    climbWithin deeper minimum (steps + 1) line ⟨passed, link.operator :: rest⟩ =
      deeper.algebraic (link.precedence + 1) line ⟨some link.operator.span.stop, rest⟩ >>=
        fun read => climbWithin deeper minimum steps line read.2 >>= fun others =>
          .ok (read.1 ++ [.command link.command] ++ others.1, others.2) := by
  have enough : ¬ link.command.precedence < minimum := Nat.not_lt_of_le tight
  have plain : (link.command == Command.whereBound) = false := beq_eq_false_iff_ne.mpr link.noBinding
  rw [climbWithin, bind_run, infixed?_cons, link.denotes, Outcome.ok_bind]
  simp only [if_neg enough, plain, Bool.false_eq_true, if_false]
  change (deeper.algebraic (link.precedence + 1) line ⟨some link.operator.span.stop, rest⟩ >>=
    fun read => Except.ok (read.1 ++ [.command link.command], read.2)) >>= (fun read =>
      climbWithin deeper minimum steps line read.2 >>= fun others =>
        Except.ok (read.1 ++ others.1, others.2)) = _
  rw [bind_assoc]
  rfl

/-- Where the loop stops, what has been read is all. -/
theorem further_stop {minimum : Precedence} {steps : ℕ} {cursor : Cursor}
    (stops : climbWithin deeper minimum steps line cursor = .ok ([], cursor))
    (front : Outcome (List Value)) :
    further deeper line minimum steps front cursor = front.map fun items => (items, cursor) := by
  cases front with
  | error fault => rfl
  | ok items =>
    rw [further, stops]
    exact congrArg (fun items => Except.ok (items, cursor)) (List.append_nil items)

/-- Where the right operand has been read as a tree, the loop goes on behind the operation. -/
theorem further_operation {minimum : Precedence} (steps : ℕ) (passed : Option ℕ) {link : Link}
    {rest : List Token.Spanned} (left : Grouping) {right : Grouping} {stop : Cursor}
    (tight : minimum ≤ link.precedence)
    (read : deeper.algebraic (link.precedence + 1) line ⟨some link.operator.span.stop, rest⟩ =
      (right.items line.settings).map fun items => (items, stop)) :
    further deeper line minimum (steps + 1) (left.items line.settings)
        ⟨passed, link.operator :: rest⟩ =
      further deeper line minimum steps
        ((Grouping.operation link.command left right).items line.settings) stop := by
  rw [further, further, Grouping.items, climbWithin_tight steps passed tight, read]
  cases left.items line.settings with
  | error fault => rfl
  | ok front =>
    cases right.items line.settings with
    | error fault => rfl
    | ok operand =>
      simp only [Except.map, Outcome.ok_bind, bind_assoc, pure_bind, List.append_assoc]

/-- Where the right operand lies too deep, so does the whole, unless its left operand has a fault.
-/
theorem further_tooDeep {minimum : Precedence} {steps : ℕ} {passed : Option ℕ} {link : Link}
    {rest : List Token.Spanned} {span : Span} (tight : minimum ≤ link.precedence)
    (deep : deeper.algebraic (link.precedence + 1) line ⟨some link.operator.span.stop, rest⟩ =
      .error (.nestingTooDeep span)) (items : List Value) :
    further deeper line minimum (steps + 1) (.ok items) ⟨passed, link.operator :: rest⟩ =
      .error (.nestingTooDeep span) := by
  rw [further, climbWithin_tight steps passed tight, deep]
  rfl

/-- The operators in front of the first one that binds less tightly bind tightly. -/
theorem le_of_mem_tight {minimum : Precedence} {links : List Link} {link : Link}
    (among : link ∈ tight minimum links) : minimum ≤ link.precedence := by
  unfold tight at among
  simpa using List.mem_takeWhile_imp among

/-- A chain is what is in front of the first operator that binds less tightly, and the others. -/
theorem tight_append_loose (minimum : Precedence) (links : List Link) :
    tight minimum links ++ loose minimum links = links := List.takeWhile_append_dropWhile

/-- An operator that binds tightly enough takes what binds more tightly for its right operand, and
the chain goes on behind that. -/
theorem tight_cons {minimum : Precedence} {link : Link} (tightly : minimum ≤ link.precedence)
    (links : List Link) :
    tight minimum (link :: links) = link :: tight (link.precedence + 1) links ++
        tight minimum (loose (link.precedence + 1) links) ∧
      loose minimum (link :: links) = loose minimum (loose (link.precedence + 1) links) := by
  have inside : ∀ other ∈ tight (link.precedence + 1) links,
      decide (minimum ≤ other.precedence) = true := by
    intro other among
    exact decide_eq_true (tightly.trans (Nat.le_of_succ_le (le_of_mem_tight among)))
  have front : tight minimum (link :: links) = link :: tight minimum links := by
    simp [tight, tightly]
  have back : loose minimum (link :: links) = loose minimum links := by
    simp [loose, tightly]
  have whole := tight_append_loose (link.precedence + 1) links
  constructor
  · rw [front]
    conv_lhs => rw [← whole]
    exact congrArg (link :: ·) (List.takeWhile_append_of_pos inside)
  · rw [back]
    conv_lhs => rw [← whole]
    exact List.dropWhile_append_of_pos inside

/-- The first operator behind those that bind tightly does not. -/
theorem lt_of_head?_loose {minimum : Precedence} {links : List Link} {link : Link}
    (first : link ∈ (loose minimum links).head?) : link.precedence < minimum := by
  have refused := List.head?_dropWhile_not (fun link : Link => decide (minimum ≤ link.precedence))
    links
  rw [show (links.dropWhile _).head? = some link from first] at refused
  simpa using refused

/-- Where the loop stops, the tree of what has been read is the whole tree. -/
theorem exists_yields_of_stops {minimum : Precedence} {first : Atom} {steps : ℕ}
    {links done : List Link} {left : Grouping} (groups : Groups first done left)
    (none : tight minimum links = [])
    (stops : climbWithin deeper minimum steps line (behind first done (tokensOf links ++ follow)) =
      .ok ([], behind first done (tokensOf links ++ follow))) :
    ∃ tree, Groups first (done ++ tight minimum links) tree ∧ left.levels ≤ tree.levels ∧
      Yields (levels + 1) line.settings tree
        (behind first (done ++ tight minimum links) (tokensOf (loose minimum links) ++ follow))
        (further deeper line minimum steps (left.items line.settings)
          (behind first done (tokensOf links ++ follow))) := by
  have all : loose minimum links = links := by
    have whole := tight_append_loose minimum links
    rwa [none, List.nil_append] at whole
  rw [none, all, List.append_nil]
  have read := further_stop stops (left.items line.settings)
  exact ⟨left, groups, le_rfl, fun _ => read, .inl read⟩

/-- The loop makes of what is left of a chain, behind what it has read, the tree of all that binds
tightly enough. Every operator it comes to binds no more tightly than those in front of it, so each
new operation is outermost. -/
theorem further_yields (climbs : Climbs levels line follow deeper.algebraic) (ends : Ends follow)
    (minimum : Precedence) {first : Atom} {steps : ℕ} {links done : List Link} {left : Grouping}
    (enough : links.length ≤ steps) (groups : Groups first done left)
    (looser : ∀ link ∈ links.head?, ∀ other ∈ done, link.precedence ≤ other.precedence) :
    ∃ tree, Groups first (done ++ tight minimum links) tree ∧ left.levels ≤ tree.levels ∧
      Yields (levels + 1) line.settings tree
        (behind first (done ++ tight minimum links) (tokensOf (loose minimum links) ++ follow))
        (further deeper line minimum steps (left.items line.settings)
          (behind first done (tokensOf links ++ follow))) := by
  induction steps generalizing links done left with
  | zero =>
    obtain rfl := List.eq_nil_of_length_eq_zero (Nat.le_zero.mp enough)
    exact exists_yields_of_stops groups rfl (climbWithin_ends minimum 0 _ ends)
  | succ steps inductionHypothesis =>
    match links with
    | [] => exact exists_yields_of_stops groups rfl (climbWithin_ends minimum (steps + 1) _ ends)
    | link :: links =>
      by_cases tightly : minimum ≤ link.precedence
      · obtain ⟨front, back⟩ := tight_cons tightly links
        obtain ⟨right, rightGroups, yields⟩ := climbs (link.precedence + 1) link.operand links
          (some link.operator.span.stop)
        have operation : Groups first (done ++ link :: tight (link.precedence + 1) links)
            (.operation link.command left right) :=
          .operation (looser link rfl) (fun other among => le_of_mem_tight among) groups rightGroups
        have fewer : (loose (link.precedence + 1) links).length ≤ steps :=
          ((List.dropWhile_suffix _).length_le).trans (Nat.le_of_succ_le_succ enough)
        have looserBehind : ∀ next ∈ (loose (link.precedence + 1) links).head?,
            ∀ other ∈ done ++ link :: tight (link.precedence + 1) links,
              next.precedence ≤ other.precedence := by
          intro next found other among
          have below : next.precedence ≤ link.precedence :=
            Nat.le_of_lt_succ (lt_of_head?_loose found)
          rcases List.mem_append.mp among with early | late
          · exact below.trans (looser link rfl other early)
          · rcases List.mem_cons.mp late with rfl | inner
            · exact below
            · exact below.trans (Nat.le_of_succ_le (le_of_mem_tight inner))
        obtain ⟨tree, treeGroups, more, treeYields⟩ :=
          inductionHypothesis fewer operation looserBehind
        rw [List.append_assoc, ← front] at treeGroups treeYields
        rw [back]
        have least : max left.levels (right.levels + 1) ≤ tree.levels := more
        have leftLevels := (le_max_left _ _).trans least
        have rightLevels := (le_max_right _ _).trans least
        have place : behind first (done ++ link :: tight (link.precedence + 1) links)
            (tokensOf (loose (link.precedence + 1) links) ++ follow) =
            behind link.operand (tight (link.precedence + 1) links)
              (tokensOf (loose (link.precedence + 1) links) ++ follow) := by
          rw [behind, behind, lastOperand_append]
        rw [place] at treeYields
        refine ⟨tree, treeGroups, leftLevels, ?_⟩
        rcases yields.always with read | ⟨span, deep⟩
        · have step := further_operation steps (behind first done []).passed left tightly read
          exact step ▸ treeYields
        · cases leftItems : left.items line.settings with
          | error fault =>
            have operationItems : (Grouping.operation link.command left right).items line.settings =
                .error fault := by
              rw [Grouping.items, leftItems]
              rfl
            rw [operationItems] at treeYields
            exact treeYields
          | ok items =>
            refine ⟨fun levelsEnough => ?_, .inr ⟨span, further_tooDeep tightly deep items⟩⟩
            have read := yields.enough (Nat.le_of_succ_le_succ (rightLevels.trans levelsEnough))
            have step := further_operation steps (behind first done []).passed left tightly read
            rw [leftItems] at step
            exact step.trans (treeYields.enough levelsEnough)
      · have none : tight minimum (link :: links) = [] := by simp [tight, tightly]
        exact exists_yields_of_stops groups none
          (climbWithin_loose (steps + 1) _ (Nat.lt_of_not_le tightly) _)

/-- A chain is read as its tree within every number of levels. -/
theorem climbs_algebraicWithin (levels : ℕ) (line : Line) (ends : Ends follow) :
    Climbs levels line follow (algebraicWithin levels) := by
  induction levels with
  | zero =>
    intro minimum first links passed
    obtain ⟨tree, groups⟩ := exists_groups first (tight minimum links)
    refine ⟨tree, groups, fun none => ?_, .inr ⟨first.token.span, rfl⟩⟩
    cases tree with
    | operand => simp [Grouping.levels] at none
    | operation => simp [Grouping.levels] at none
  | succ levels inductionHypothesis =>
    intro minimum first links passed
    have count : links.length ≤ (tokensOf links ++ follow).length := by
      simp only [tokensOf, List.length_append, List.length_flatMap, List.length_cons,
        List.length_nil, List.map_const', List.sum_replicate, smul_eq_mul]
      omega
    have climbs : Climbs levels line follow
        (DeeperOn.mk (algebraicWithin levels) (sequenceWithin levels)).algebraic :=
      inductionHypothesis
    obtain ⟨tree, groups, _, yields⟩ :=
      further_yields climbs ends minimum count (.operand first) (by simp)
    have read : algebraicWithin (levels + 1) minimum line
        ⟨passed, first.token :: (tokensOf links ++ follow)⟩ =
        further ⟨algebraicWithin levels, sequenceWithin levels⟩ line minimum
          (tokensOf links ++ follow).length ((Grouping.operand first).items line.settings)
          (behind first [] (tokensOf links ++ follow)) := by
      rw [algebraicWithin, climb, bind_run, primary_atom first passed (apart_tokensOf links ends),
        Grouping.items]
      cases first.items line.settings <;> rfl
    exact ⟨tree, groups, read ▸ yields⟩

/-- A chain of operands of one token with operators between them is read as far as the operators
bind at least as tightly as a minimum, and what is made of it is the one tree whose outermost
operator is the last one among those that bind least tightly, and so on on both sides. That takes at
most one more level than there are precedences in the part that is read, of which there are six. -/
theorem algebraicWithin_chain (levels : ℕ) (line : Line) (minimum : Precedence) (first : Atom)
    (links : List Link) (passed : Option ℕ) {follow : List Token.Spanned} (ends : Ends follow) :
    ∃ tree, (∀ other, Groups first (tight minimum links) other ↔ other = tree) ∧
      tree.levels ≤ (precedences (tight minimum links)).card + 1 ∧
      (precedences (tight minimum links)).card ≤ 6 ∧
      Yields levels line.settings tree
        (behind first (tight minimum links) (tokensOf (loose minimum links) ++ follow))
        (algebraicWithin levels minimum line
          ⟨passed, first.token :: (tokensOf links ++ follow)⟩) := by
  obtain ⟨tree, groups, yields⟩ :=
    climbs_algebraicWithin levels line ends minimum first links passed
  refine ⟨tree, fun other => ⟨fun others => others.unique groups, ?_⟩, groups.levels_le,
    card_precedences_le _, yields⟩
  rintro rfl
  exact groups

/-- An expression of sums and products is read in `2-3*4-5=6` as far as the sign of equality, as
`(2-(3*4))-5`. Three levels are enough for it. -/
theorem algebraicWithin_chain_sums :
    let number (text : String) (offset : ℕ) : Atom :=
      ⟨⟨.number text, ⟨offset, 1⟩⟩, .inl ⟨text, rfl⟩⟩
    let difference : Link := ⟨⟨.operator .subtract, ⟨1, 1⟩⟩, .subtract, rfl, nofun, number "3" 2⟩
    let product : Link := ⟨⟨.operator .multiply, ⟨3, 1⟩⟩, .multiply, rfl, nofun, number "4" 4⟩
    let other : Link := ⟨⟨.operator .subtract, ⟨5, 1⟩⟩, .subtract, rfl, nofun, number "5" 6⟩
    let equation : Link := ⟨⟨.operator .equation, ⟨7, 1⟩⟩, .equation, rfl, nofun, number "6" 8⟩
    let integer (value : ℤ) : Value := .real (.ofInt value)
    Ends [] ∧
      algebraicWithin 3 Precedence.additive ⟨{}, 9⟩
          ⟨none, (number "2" 0).token :: (tokensOf [difference, product, other, equation] ++ [])⟩ =
        .ok ([integer 2, integer 3, integer 4, .command .multiply, .command .subtract, integer 5,
          .command .subtract], ⟨some 7, tokensOf [equation] ++ []⟩) := by
  intro number difference product other equation integer
  have ends : Ends [] := fun _ none => by cases none
  obtain ⟨tree, only, _, _, yields⟩ := algebraicWithin_chain 3 ⟨{}, 9⟩ Precedence.additive
    (number "2" 0) [difference, product, other, equation] none ends
  have inner : Groups (number "3" 2) ([] ++ product :: []) _ :=
    .operation (by simp) (by simp) (.operand _) (.operand _)
  have middle : Groups (number "2" 0) ([] ++ difference :: [product]) _ :=
    .operation (by simp) (by simp; decide) (.operand _) inner
  have whole : Groups (number "2" 0) ([difference, product] ++ other :: []) _ :=
    .operation (by simp; decide) (by simp) middle (.operand _)
  obtain rfl := (only _).mp whole
  exact ⟨ends, yields.enough (by decide)⟩

/-- The first value of a text that is a chain is the tree of its operators up to the first one that
binds less tightly, and what is read for it ends behind the last operand of that. Seven levels are
enough. -/
theorem readObject_chain {source : String} {settings : Preferences} {minimum : Precedence}
    {first : Atom} {links : List Link}
    (tokens : Token.split source = .ok (first.token :: tokensOf links)) (some : minimum ≠ 0)
    (levels : 7 ≤ settings.maxRecursion.toNat) :
    ∃ tree, Groups first (tight minimum links) tree ∧
      readObject source settings none minimum = (tree.items settings).map fun items =>
        Option.some (.expression items,
          (lastOperand first (tight minimum links)).token.span.stop) := by
  have ends : Ends [] := fun _ none => by cases none
  obtain ⟨tree, groups, yields⟩ := climbs_algebraicWithin settings.maxRecursion.toNat
    ⟨settings, source.utf8ByteSize⟩ ends minimum first links none
  have within : tree.levels ≤ settings.maxRecursion.toNat :=
    (groups.levels_le.trans (Nat.succ_le_succ (card_precedences_le _))).trans levels
  have read := yields.enough within
  rw [List.append_nil] at read
  refine ⟨tree, groups, ?_⟩
  rw [readObject, start, tokens]
  simp only [if_neg some]
  change ((algebraicWithin settings.maxRecursion.toNat minimum ⟨settings, source.utf8ByteSize⟩
    ⟨none, first.token :: tokensOf links⟩ >>= fun read =>
      Except.ok (Option.some (Value.expression read.1, read.2.passed.getD 0), read.2)) >>=
        fun found => Except.ok found.1) = _
  rw [read]
  cases tree.items settings <;> rfl

end Calculator.Source
