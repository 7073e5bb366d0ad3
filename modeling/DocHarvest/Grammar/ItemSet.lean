import DocHarvest.Grammar.Table

/-!
Sets of partly read productions, and the decisions they allow.

A kernel lists the productions that are being read after some beginning of a text, each with the
terminals that may follow it.  A terminal may be shifted, or it may end some of the productions.
Where both are possible, levels decide first and grouping second; a tie that neither decides is
kept, and the reader follows both ways.
-/

namespace DocHarvest.Grammar

/-- A production of which the first `read` symbols have been read. -/
structure Item where
  production : Nat
  read : Nat
deriving DecidableEq, Hashable, Repr, Inhabited

/-- Items with the terminals that may follow their productions. -/
abbrev Kernel := List (Item × TokenSet)

structure Decision where
  /-- Productions that may end before the terminal. -/
  reductions : List Nat
  shifts : Bool
deriving DecidableEq, Repr

/-- A kernel with what follows from it. -/
structure State where
  kernel : Kernel
  /-- For each category that may begin here, the terminals that may follow it. -/
  opening : Array TokenSet
  shiftable : TokenSet
  reducible : TokenSet
deriving Inhabited

namespace Table

variable {κ φ : Type} (table : Table κ φ)

def remaining (item : Item) : List (Step κ φ) :=
  match table.productions[item.production]? with
  | some production => production.steps.drop item.read
  | none => []

def lastRead (item : Item) : Option (Step κ φ) :=
  match table.productions[item.production]? with
  | some production => if item.read = 0 then none else production.steps[item.read - 1]?
  | none => none

/-- The level in force after the symbols read so far. -/
def level (item : Item) : Int :=
  ((table.lastRead item).bind Step.level).getD 0

def grouping (item : Item) : Option Grouping :=
  (table.lastRead item).bind Step.grouping

def expected (item : Item) : TokenSet :=
  match table.remaining item with
  | [] => .empty
  | step :: _ => firstOf table.first step.symbol

/-- For each category that may begin at one of the items, the terminals that may follow it. -/
def opening (kernel : Kernel) : Array TokenSet :=
  kernel.foldl
    (fun known (item, lookahead) =>
      match table.remaining item with
      | ⟨.category inner, _, _, _, _⟩ :: after =>
          let follow :=
            match after with
            | [] => lookahead
            | next :: _ => firstOf table.first next.symbol
          (table.leading.getD inner []).foldl
            (fun sets found =>
              sets.modify found.category fun set =>
                set.union (if found.inherits then found.follow.union follow else found.follow))
            known
      | _ => known)
    (Array.replicate table.categories.size .empty)

def stateOf (kernel : Kernel) : State :=
  { kernel
    opening := table.opening kernel
    shiftable := kernel.foldl (fun set entry => set.union (table.expected entry.1)) .empty
    reducible := kernel.foldl
      (fun set (item, lookahead) =>
        if (table.remaining item).isEmpty then set.union lookahead else set)
      .empty }

/-- All ways to write a whole text, with nothing read. -/
def startKernel : Kernel :=
  table.productions.toList.zipIdx.filterMap fun (production, number) =>
    if production.head = table.start then some (⟨number, 0⟩, .single 0) else none

def advance (state : State) (symbol : Symbol) : Kernel :=
  let moved := state.kernel.filterMap fun (item, lookahead) =>
    match table.remaining item with
    | step :: _ =>
        if step.symbol = symbol then some (⟨item.production, item.read + 1⟩, lookahead) else none
    | [] => none
  let begun :=
    match symbol with
    | .token number => table.beginningWithToken.getD number []
    | .category number => table.beginningWithCategory.getD number []
  let opened := begun.filterMap fun number =>
    match table.productions[number]? with
    | some production =>
        let follow := state.opening.getD production.head .empty
        if follow = .empty then none else some (⟨number, 1⟩, follow)
    | none => none
  (moved ++ opened).mergeSort fun left right =>
    left.1.production < right.1.production ||
      (left.1.production == right.1.production && left.1.read ≤ right.1.read)

/-- The productions of a kernel that may end before a terminal, those of the highest level. -/
def completions (kernel : Kernel) (token : Nat) : List Item :=
  let finished := kernel.filterMap fun (item, lookahead) =>
    if (table.remaining item).isEmpty && lookahead.contains token then some item else none
  finished.filter fun item => finished.all fun other => table.level other ≤ table.level item

/-- What may be done at a terminal, after levels and grouping have been consulted. -/
def decision (state : State) (token : Nat) : Decision :=
  let ending := table.completions state.kernel token
  let reductions := ending.map Item.production
  match ending with
  | [] => { reductions, shifts := state.shiftable.contains token }
  | finished :: _ =>
      if state.shiftable.contains token then
        let competing := state.kernel.filterMap fun (item, _) =>
          if 0 < item.read && (table.expected item).contains token then some item else none
        let above := competing.any fun item => table.level finished < table.level item
        let below := competing.any fun item => table.level item < table.level finished
        match above, below with
        | true, false => { reductions := [], shifts := true }
        | false, true => { reductions, shifts := false }
        | true, true => { reductions, shifts := true }
        | false, false =>
            if ending.all fun item => table.grouping item = some .left then
              { reductions, shifts := false }
            else if ending.all fun item => table.grouping item = some .right then
              { reductions := [], shifts := true }
            else { reductions, shifts := true }
      else { reductions, shifts := false }

end Table

end DocHarvest.Grammar
