import DocHarvest.Grammar.Automaton
import DocHarvest.Grammar.Tree

/-!
Reading a text by a grammar.

A reading is a stack of entries over the text read so far.  Each step asks the lexer for the next
terminal, given the terminals that the top state admits, and then ends productions or reads the
terminal as `Table.decision` allows.  Where a decision allows several things, all of them are
followed side by side; two readings that reach the same states are joined, and of their trees the
one of greater weight is kept.  A reading that cannot go on is dropped.
-/

namespace DocHarvest.Grammar

structure Lexeme (σ : Type) where
  token : Nat
  /-- The terminal to take instead where `token` cannot stand. -/
  instead : Option Nat
  gap : List Char
  text : List Char
  rest : List Char
  /-- What the lexer remembers after this terminal. -/
  memory : σ

structure Reader (κ φ σ : Type) where
  table : Table κ φ
  /-- Categories that leave their parts to the phrase around them. -/
  hidden : κ → Bool
  /-- Terminals that are looked for only where they are admitted. -/
  contextual : κ → Bool
  memory : σ
  /-- The next terminal out of a set, at the beginning of the text or later. -/
  lex : σ → TokenSet → (atStart : Bool) → List Char → Option (Lexeme σ)

/-- One symbol on the stack, with the state after it. -/
structure Entry (κ φ : Type) where
  state : Nat
  /-- A terminal that may stand anywhere, and belongs to no production. -/
  extra : Bool
  hidden : Bool
  parts : List (Tree κ φ)

/-- A way in which the text so far has been read. -/
structure Reading (κ φ σ : Type) where
  entries : List (Entry κ φ)
  memory : σ
  rest : List Char
  place : Place
  pending : Option (Lexeme σ)
  weight : Int
  count : Nat

inductive Progress (κ φ σ : Type) where
  | stuck
  | onward (readings : List (Reading κ φ σ))
  | whole (tree : Tree κ φ) (weight : Int)

namespace Reading

variable {κ φ σ : Type}

def state (reading : Reading κ φ σ) : Nat :=
  match reading.entries with
  | [] => 0
  | entry :: _ => entry.state

/-- Whether two readings will go on alike. -/
def sameFuture [BEq σ] (left right : Reading κ φ σ) : Bool :=
  left.count == right.count && left.state == right.state &&
    left.place == right.place && left.memory == right.memory &&
    left.entries.map Entry.state == right.entries.map Entry.state

/-- Add a reading to a list, or join it with one that goes on alike. -/
def insert [BEq σ] (reading : Reading κ φ σ) : List (Reading κ φ σ) → List (Reading κ φ σ)
  | [] => [reading]
  | other :: rest =>
      if reading.sameFuture other then
        (if other.weight < reading.weight then
          { reading with pending := reading.pending.or other.pending }
        else { other with pending := other.pending.or reading.pending }) :: rest
      else other :: insert reading rest

/-- Take out the first of the readings that have read the fewest terminals. -/
def takeEarliest : List (Reading κ φ σ) → Option (Reading κ φ σ × List (Reading κ φ σ))
  | [] => none
  | reading :: rest =>
      match takeEarliest rest with
      | none => some (reading, [])
      | some (best, others) =>
          if best.count < reading.count then some (best, reading :: others)
          else some (reading, best :: others)

end Reading

namespace Reader

variable {κ φ σ : Type} (reader : Reader κ φ σ)

/-- Take the entries of a production off a stack: the entries in the order of the text, the extra
entries above them, and the stack below. -/
def takeEntries : (count : Nat) → List (Entry κ φ) → List (Entry κ φ) →
    List (Entry κ φ) × List (Entry κ φ)
  | 0, taken, stack => (taken, stack)
  | _ + 1, taken, [] => (taken, [])
  | count + 1, taken, entry :: stack =>
      if entry.extra then takeEntries (count + 1) (entry :: taken) stack
      else takeEntries count (entry :: taken) stack
termination_by _ _ stack => stack.length

/-- The parts of an entry as its production wants them: under the name and in the role that the
step gives. -/
def dress [BEq κ] (extraKinds : List κ) (step : Step κ φ) (entry : Entry κ φ) :
    List (Tree κ φ) :=
  let shown :=
    match step.shown with
    | none => entry.parts
    | some name =>
        if entry.hidden then [.node none name entry.parts]
        else entry.parts.map (Tree.withKind name)
  shown.map fun part => if extraKinds.contains part.kind then part else part.inRole step.role

def collect [BEq κ] (extraKinds : List κ) : List (Step κ φ) → List (Entry κ φ) → List (Tree κ φ)
  | _, [] => []
  | [], entry :: rest => entry.parts ++ collect extraKinds [] rest
  | step :: steps, entry :: rest =>
      if entry.extra then entry.parts ++ collect extraKinds (step :: steps) rest
      else dress extraKinds step entry ++ collect extraKinds steps rest

/-- End a production: its entries give way to one entry of its category. -/
def reduce [BEq κ] (automaton : Automaton κ φ) (reading : Reading κ φ σ)
    (production : Production κ φ) : Reading κ φ σ × Automaton κ φ :=
  let above := reading.entries.takeWhile Entry.extra
  let (taken, below) :=
    takeEntries production.steps.length [] (reading.entries.dropWhile Entry.extra)
  let parts := collect reader.table.extraKinds production.steps taken
  let source :=
    match below with
    | [] => 0
    | entry :: _ => entry.state
  let (target, automaton) := automaton.move source (.category production.head)
  let entry : Entry κ φ :=
    match (reader.table.categories[production.head]?).join with
    | none => ⟨target, false, true, parts⟩
    | some name =>
        if reader.hidden name then ⟨target, false, true, parts⟩
        else ⟨target, false, false, [.node none name parts]⟩
  let carried := above.map fun extra => { extra with state := target }
  ({ reading with
      entries := carried ++ entry :: below
      weight := reading.weight + production.weight }, automaton)

def shift (automaton : Automaton κ φ) (reading : Reading κ φ σ) (lexeme : Lexeme σ)
    (token : Nat) (extra : Bool) : Option (Reading κ φ σ × Automaton κ φ) :=
  match reader.table.terminals[token - 1]? with
  | none => none
  | some kind =>
      let start := reading.place.after lexeme.gap
      let leaf := Tree.leaf none kind lexeme.gap lexeme.text start
      let (target, automaton) :=
        if extra then (reading.state, automaton)
        else automaton.move reading.state (.token token)
      some ({ reading with
          entries := ⟨target, extra, false, [leaf]⟩ :: reading.entries
          memory := lexeme.memory
          rest := lexeme.rest
          place := start.after lexeme.text
          pending := none
          count := reading.count + 1 }, automaton)

/-- The tree of a whole text: everything on the stack under the start category. -/
def wholeTree (reading : Reading κ φ σ) : Option (Tree κ φ) :=
  (reader.table.categories[reader.table.start]?).join.map fun name =>
    .node none name (reading.entries.reverse.flatMap Entry.parts)

/-- End each of the given productions, all for one terminal.  Only the last of these readings
keeps the terminal; the others ask for it again. -/
def reduceAll [BEq κ] (reading : Reading κ φ σ) (kept : Option (Lexeme σ)) :
    Automaton κ φ → List Nat → List (Reading κ φ σ) × Automaton κ φ
  | automaton, [] => ([], automaton)
  | automaton, number :: rest =>
      match reader.table.productions[number]? with
      | none => reduceAll reading kept automaton rest
      | some production =>
          let (reduced, automaton) := reader.reduce automaton reading production
          let (others, automaton) := reduceAll reading kept automaton rest
          ({ reduced with pending := if rest.isEmpty then kept else none } :: others, automaton)

def follow [BEq κ] (automaton : Automaton κ φ) (reading : Reading κ φ σ) (lexeme : Lexeme σ)
    (token : Nat) (decision : Decision) : Progress κ φ σ × Automaton κ φ :=
  let ending := decision.reductions.any fun number =>
    match reader.table.productions[number]? with
    | some production => production.head == reader.table.start
    | none => false
  if ending then
    match reader.wholeTree reading with
    | some tree => (.whole tree reading.weight, automaton)
    | none => (.stuck, automaton)
  else if decision.shifts then
    let (reduced, automaton) := reader.reduceAll reading none automaton decision.reductions
    match reader.shift automaton reading lexeme token false with
    | some (shifted, automaton) => (.onward (shifted :: reduced), automaton)
    | none => (.onward reduced, automaton)
  else
    let (reduced, automaton) :=
      reader.reduceAll reading (some lexeme) automaton decision.reductions
    (.onward reduced, automaton)

def step [BEq κ] (automaton : Automaton κ φ) (reading : Reading κ φ σ) :
    Progress κ φ σ × Automaton κ φ :=
  let asked := reading.pending.or
    (reader.lex reading.memory (automaton.valid reading.state) (reading.place == .origin)
      reading.rest)
  match asked with
  | none => (.stuck, automaton)
  | some lexeme =>
      let decision := automaton.decision reading.state lexeme.token
      if decision.shifts || !decision.reductions.isEmpty then
        reader.follow automaton reading lexeme lexeme.token decision
      else if reader.table.extras.contains lexeme.token then
        match reader.shift automaton reading lexeme lexeme.token true with
        | some (shifted, automaton) => (.onward [shifted], automaton)
        | none => (.stuck, automaton)
      else
        match lexeme.instead with
        | none => (.stuck, automaton)
        | some token =>
            let decision := automaton.decision reading.state token
            if decision.shifts || !decision.reductions.isEmpty then
              reader.follow automaton reading { lexeme with token, instead := none } token decision
            else (.stuck, automaton)

inductive Outcome (κ φ σ : Type) where
  | tree (tree : Tree κ φ)
  /-- No reading is left; the one that came furthest is kept, with the states that it names. -/
  | stuck (reading : Reading κ φ σ) (automaton : Automaton κ φ)

/-- Go on with all readings, the one that is least far first, for at most `fuel` steps. -/
def run [BEq κ] [BEq σ] : (fuel : Nat) → Automaton κ φ → List (Reading κ φ σ) →
    (best : Option (Tree κ φ × Int)) → (furthest : Reading κ φ σ) → Outcome κ φ σ
  | 0, automaton, _, best, furthest =>
      match best with
      | some (tree, _) => .tree tree
      | none => .stuck furthest automaton
  | fuel + 1, automaton, readings, best, furthest =>
      match Reading.takeEarliest readings with
      | none =>
          match best with
          | some (tree, _) => .tree tree
          | none => .stuck furthest automaton
      | some (reading, others) =>
          match reader.step automaton reading with
          | (.stuck, automaton) =>
              let furthest := if furthest.count < reading.count then reading else furthest
              run fuel automaton others best furthest
          | (.onward next, automaton) =>
              run fuel automaton (next.foldl (fun list reading => reading.insert list) others)
                best furthest
          | (.whole tree weight, automaton) =>
              let best :=
                match best with
                | some (_, known) => if known < weight then some (tree, weight) else best
                | none => some (tree, weight)
              run fuel automaton others best furthest

def fuelFor (text : List Char) : Nat :=
  1024 * (text.length + 8)

def initial (text : List Char) : Reading κ φ σ :=
  { entries := []
    memory := reader.memory
    rest := text
    place := .origin
    pending := none
    weight := 0
    count := 0 }

def read [BEq κ] [BEq σ] (text : List Char) : Outcome κ φ σ :=
  let reading := reader.initial text
  reader.run (fuelFor text) (Automaton.start reader.table) [reading] none reading

/-- The set of all terminals that are looked for anywhere, the end of the text included. -/
def everyToken : TokenSet :=
  reader.table.terminals.toList.zipIdx.foldl
    (fun set (kind, index) =>
      if reader.contextual kind then set else set.union (.single (index + 1)))
    (.single 0)

/-- The terminal at which a reading is stuck, whether it is admitted there or not. -/
def obstacle? (automaton : Automaton κ φ) (reading : Reading κ φ σ) : Option (Lexeme σ) :=
  let atStart := reading.place == .origin
  reading.pending.or
    ((reader.lex reading.memory (automaton.valid reading.state) atStart reading.rest).or
      (reader.lex reading.memory reader.everyToken atStart reading.rest))

/-- Whether the text can be read if a terminal is put in where the reading is stuck.  The terminal
must end a production before the one that stands there. -/
def mendedBy [BEq κ] [BEq σ] (automaton : Automaton κ φ) (reading : Reading κ φ σ)
    (obstacle : Lexeme σ) (token : Nat) : Bool :=
  if (automaton.decision reading.state token).shifts then
    let empty : Lexeme σ :=
      { token
        instead := none
        gap := []
        text := []
        rest := reading.rest
        memory := reading.memory }
    match reader.shift automaton reading empty token false with
    | none => false
    | some (mended, automaton) =>
        if (automaton.decision mended.state obstacle.token).reductions.isEmpty then false
        else
          match reader.run (fuelFor reading.rest) automaton [mended] none mended with
          | .tree _ => true
          | .stuck .. => false
  else false

def missing? [BEq κ] [BEq σ] (automaton : Automaton κ φ) (reading : Reading κ φ σ) : Option κ :=
  (reader.obstacle? automaton reading).bind fun obstacle =>
    ((List.range reader.table.terminals.size).find? fun index =>
      reader.mendedBy automaton reading obstacle (index + 1)).bind fun index =>
        reader.table.terminals[index]?

end Reader

end DocHarvest.Grammar
