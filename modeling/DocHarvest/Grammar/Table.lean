import DocHarvest.Grammar.Rule

/-!
The productions of a grammar, numbered, with the sets of terminals that may begin a symbol.

Every repetition becomes a category of its own, shared by all rules that repeat the same body.
Terminals and categories are numbered apart; terminal `0` is the end of the text.
-/

namespace DocHarvest.Grammar

/-- A set of terminals, one bit for each number. -/
structure TokenSet where
  bits : Nat
deriving DecidableEq, Hashable, Repr, Inhabited

namespace TokenSet

def empty : TokenSet := ⟨0⟩

def single (token : Nat) : TokenSet := ⟨1 <<< token⟩

def union (left right : TokenSet) : TokenSet := ⟨left.bits ||| right.bits⟩

def contains (set : TokenSet) (token : Nat) : Bool := set.bits.testBit token

end TokenSet

inductive Symbol where
  | token (number : Nat)
  | category (number : Nat)
deriving DecidableEq, Hashable, Repr, Inhabited

/-- One place of a production, with the level and grouping in force after it. -/
structure Step (κ φ : Type) where
  symbol : Symbol
  level : Option Int
  grouping : Option Grouping
  role : Option φ
  shown : Option κ
deriving Repr

structure Production (κ φ : Type) where
  head : Nat
  steps : List (Step κ φ)
  weight : Int
deriving Repr

/-- Of two weights the one further from zero; the first if they are equally far. -/
def strongerWeight (first second : Int) : Int :=
  if first.natAbs < second.natAbs then second else first

structure Surroundings (κ φ : Type) where
  level : Option Int := none
  grouping : Option Grouping := none
  role : Option φ := none
  shown : Option κ := none

structure Derivation (κ φ : Type) where
  steps : List (Step κ φ)
  weight : Int

namespace Derivation

variable {κ φ : Type}

def modifyLast (change : Step κ φ → Step κ φ) (derivation : Derivation κ φ) : Derivation κ φ :=
  match derivation.steps.reverse with
  | [] => derivation
  | last :: before => { derivation with steps := (change last :: before).reverse }

def append (first second : Derivation κ φ) : Derivation κ φ :=
  { steps := first.steps ++ second.steps
    weight := strongerWeight first.weight second.weight }

end Derivation

section Expansion

variable {κ φ : Type}

/-- All sequences of steps that a rule allows.  A level or grouping that ends before the rule
around it does gives its last step back to what encloses it. -/
def derivations (symbolOf : κ → Symbol) (repetitionOf : Rule κ φ → Symbol)
    (around : Surroundings κ φ) (atEnd : Bool) : Rule κ φ → List (Derivation κ φ)
  | .nothing => [⟨[], 0⟩]
  | .symbol name =>
      [⟨[⟨symbolOf name, around.level, around.grouping, around.role, around.shown⟩], 0⟩]
  | .many body =>
      [⟨[⟨repetitionOf body, around.level, around.grouping, around.role, around.shown⟩], 0⟩]
  | .follow first second =>
      (derivations symbolOf repetitionOf around false first).flatMap fun start =>
        (derivations symbolOf repetitionOf around atEnd second).map fun rest =>
          start.append rest
  | .either first second =>
      derivations symbolOf repetitionOf around atEnd first ++
        derivations symbolOf repetitionOf around atEnd second
  | .ranked level grouping body =>
      let inner := { around with level := some level, grouping := grouping.or around.grouping }
      (derivations symbolOf repetitionOf inner atEnd body).map fun derivation =>
        if atEnd then derivation
        else derivation.modifyLast fun step =>
          { step with level := around.level, grouping := around.grouping }
  | .weighted weight body =>
      (derivations symbolOf repetitionOf around atEnd body).map fun derivation =>
        { derivation with weight := strongerWeight weight derivation.weight }
  | .role name body =>
      derivations symbolOf repetitionOf { around with role := some name } atEnd body
  | .shown name body =>
      derivations symbolOf repetitionOf { around with shown := some name } atEnd body

/-- Put the steps of an inlined category in the place of the step that names it. -/
def Derivation.inPlaceOf (step : Step κ φ) (inner : Derivation κ φ) : Derivation κ φ :=
  let named := inner.steps.map fun inserted =>
    { inserted with role := step.role.or inserted.role, shown := step.shown.or inserted.shown }
  Derivation.modifyLast (fun last =>
      { last with
        level := last.level.or step.level
        grouping := last.grouping.or step.grouping })
    { inner with steps := named }

/-- Write out inlined categories, nested at most `depth` deep. -/
def expandInlined (alternatives : Nat → Option (List (Derivation κ φ))) :
    (depth : Nat) → Derivation κ φ → List (Derivation κ φ)
  | 0, derivation => [derivation]
  | depth + 1, derivation =>
      derivation.steps.foldl
        (fun built step =>
          let choices : List (Derivation κ φ) :=
            match step.symbol with
            | .token _ => [⟨[step], 0⟩]
            | .category number =>
                match alternatives number with
                | none => [⟨[step], 0⟩]
                | some inner =>
                    inner.flatMap fun derivation =>
                      expandInlined alternatives depth (derivation.inPlaceOf step)
          built.flatMap fun start => choices.map fun rest => start.append rest)
        [⟨[], derivation.weight⟩]

end Expansion

/-- How a category begins with another one: the terminals known to follow it there, and whether
what follows the outer category follows the inner one too. -/
structure Leading where
  category : Nat
  follow : TokenSet
  inherits : Bool
deriving DecidableEq, Repr, Inhabited

structure Table (κ φ : Type) where
  /-- Terminals by number; number `0` is the end of the text and stands outside this array. -/
  terminals : Array κ
  /-- Categories by number; a repetition has no name. -/
  categories : Array (Option κ)
  productions : Array (Production κ φ)
  start : Nat
  extras : TokenSet
  extraKinds : List κ
  first : Array TokenSet
  /-- For each category, all categories that may begin it, itself included. -/
  leading : Array (List Leading)
  /-- For each terminal, and for each category, the productions that begin with it. -/
  beginningWithToken : Array (List Nat)
  beginningWithCategory : Array (List Nat)

namespace Table

variable {κ φ : Type}

def firstOf (first : Array TokenSet) : Symbol → TokenSet
  | .token number => .single number
  | .category number => first.getD number .empty

def firstRound (productions : Array (Production κ φ)) (first : Array TokenSet) : Array TokenSet :=
  productions.foldl
    (fun known production =>
      match production.steps with
      | [] => known
      | step :: _ =>
          known.modify production.head fun set => set.union (firstOf known step.symbol))
    first

def mergeLeading (found : Leading) : List Leading → List Leading
  | [] => [found]
  | other :: rest =>
      if other.category = found.category then
        { other with
          follow := other.follow.union found.follow
          inherits := other.inherits || found.inherits } :: rest
      else other :: mergeLeading found rest

def leadingRound (productions : Array (Production κ φ)) (first : Array TokenSet)
    (leading : Array (List Leading)) : Array (List Leading) :=
  productions.foldl
    (fun known production =>
      match production.steps with
      | ⟨.category inner, _, _, _, _⟩ :: after =>
          let (follow, inherits) :=
            match after with
            | [] => (TokenSet.empty, true)
            | next :: _ => (firstOf first next.symbol, false)
          (known.getD inner []).foldl
            (fun table found =>
              table.modify production.head <| mergeLeading
                { category := found.category
                  follow := if found.inherits then found.follow.union follow else found.follow
                  inherits := found.inherits && inherits })
            known
      | _ => known)
    leading

/-- Apply a function until it changes nothing, at most `count` times. -/
def settle {α : Type} [BEq α] (step : α → α) : (count : Nat) → α → α
  | 0, value => value
  | count + 1, value =>
      let next := step value
      if next == value then value else settle step count next

variable [BEq κ] [BEq φ]

/-- Remove later copies. -/
def distinct {α : Type} [BEq α] (values : List α) : List α :=
  (values.foldl (fun kept value => if kept.contains value then kept else value :: kept) []).reverse

/-- Number the symbols of a grammar and list its productions. -/
def ofSpecification (grammar : Specification κ φ) : Table κ φ :=
  let named := grammar.rules.map Prod.fst
  let bodies := distinct (grammar.rules.flatMap fun rule => rule.2.repetitions)
  let terminals := grammar.terminals
  let symbolOf := fun name =>
    match named.findIdx? (· == name) with
    | some number => Symbol.category number
    | none => Symbol.token (terminals.findIdx (· == name) + 1)
  let repetitionOf := fun body =>
    Symbol.category (named.length + bodies.findIdx (· == body))
  let ruleDerivations := grammar.rules.map fun rule =>
    derivations symbolOf repetitionOf {} true rule.2
  let inlined := grammar.inlined.filterMap fun name => named.findIdx? (· == name)
  let alternatives := fun number =>
    if inlined.contains number then ruleDerivations[number]? else none
  let production := fun (head : Nat) (derivation : Derivation κ φ) =>
    (expandInlined alternatives grammar.inlined.length derivation).map fun expanded =>
      (⟨head, expanded.steps, expanded.weight⟩ : Production κ φ)
  let ofRules := ruleDerivations.zipIdx.flatMap fun (found, head) =>
    if inlined.contains head then [] else found.flatMap (production head)
  let ofRepetitions := bodies.zipIdx.flatMap fun (body, index) =>
    let head := named.length + index
    let once := derivations symbolOf repetitionOf {} true body
    let again := once.map fun derivation =>
      { derivation with
        steps := ⟨.category head, none, none, none, none⟩ :: derivation.steps }
    (once ++ again).flatMap (production head)
  let productions := (ofRules ++ ofRepetitions).toArray
  let categories := (named.map some ++ bodies.map fun _ => none).toArray
  let noTokens := Array.replicate categories.size TokenSet.empty
  let bound := 2 * categories.size
  let first := settle (firstRound productions) bound noTokens
  let itself := (Array.range categories.size).map fun number => [Leading.mk number .empty true]
  let leading := settle (leadingRound productions first) bound itself
  let numbered := productions.toList.zipIdx
  let beginning := fun symbol =>
    numbered.filterMap fun (production, number) =>
      match production.steps with
      | step :: _ => if step.symbol = symbol then some number else none
      | [] => none
  { terminals := terminals.toArray
    categories
    productions
    start := named.findIdx (· == grammar.start)
    extras := grammar.extras.foldl
      (fun set name =>
        match symbolOf name with
        | .token number => set.union (.single number)
        | .category _ => set)
      .empty
    extraKinds := grammar.extras
    first
    leading
    beginningWithToken :=
      ((List.range (terminals.length + 1)).map fun number => beginning (.token number)).toArray
    beginningWithCategory :=
      ((List.range categories.size).map fun number => beginning (.category number)).toArray }

end Table

end DocHarvest.Grammar
