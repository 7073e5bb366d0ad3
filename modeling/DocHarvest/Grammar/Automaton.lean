import DocHarvest.Grammar.ItemSet
import Std.Data.HashMap

/-!
The states of a reader, built when they are first reached.

A state is numbered when its kernel is first met.  The numbers and the moves between states are
remembered; they never change what `Table.advance` and `Table.decision` say.
-/

namespace DocHarvest.Grammar

structure Automaton (κ φ : Type) where
  table : Table κ φ
  states : Array State
  numbers : Std.HashMap Kernel Nat
  moves : Std.HashMap (Nat × Symbol) Nat

namespace Automaton

variable {κ φ : Type}

def start (table : Table κ φ) : Automaton κ φ :=
  let kernel := table.startKernel
  { table
    states := #[table.stateOf kernel]
    numbers := Std.HashMap.emptyWithCapacity.insert kernel 0
    moves := Std.HashMap.emptyWithCapacity }

def state (automaton : Automaton κ φ) (number : Nat) : State :=
  automaton.states.getD number ⟨[], #[], .empty, .empty⟩

/-- The number of the state after one more symbol. -/
def move (automaton : Automaton κ φ) (source : Nat) (symbol : Symbol) : Nat × Automaton κ φ :=
  match automaton.moves.get? (source, symbol) with
  | some target => (target, automaton)
  | none =>
      let kernel := automaton.table.advance (automaton.state source) symbol
      match automaton.numbers.get? kernel with
      | some target =>
          (target, { automaton with moves := automaton.moves.insert (source, symbol) target })
      | none =>
          let target := automaton.states.size
          (target,
            { automaton with
              states := automaton.states.push (automaton.table.stateOf kernel)
              numbers := automaton.numbers.insert kernel target
              moves := automaton.moves.insert (source, symbol) target })

/-- The terminals that may come next in a state, those that may stand anywhere included. -/
def valid (automaton : Automaton κ φ) (number : Nat) : TokenSet :=
  let state := automaton.state number
  (state.shiftable.union state.reducible).union automaton.table.extras

def decision (automaton : Automaton κ φ) (number token : Nat) : Decision :=
  automaton.table.decision (automaton.state number) token

end Automaton

end DocHarvest.Grammar
