import Contour.Grammar.Automaton

/-!
# Parsing with an automaton

The parser keeps a stack of states with a value for each symbol that has been seen. In a state it
shifts the next terminal if that leads on, and otherwise reduces by a complete production without
asking whether the terminal could follow. A terminal is read only in a state in which some terminal
leads on. Each reduction computes the value of the new symbol and may add a remark.
-/

namespace Contour.Grammar

/-- What a parser reads: a terminal with its value. -/
structure Terminal (ν : Type) where
  symbol : String
  value : ν

/-- How a grammar is given meaning: the value of a production from the values of its symbols, and
perhaps a remark. -/
abbrev Meaning (ν ρ : Type) := (production : Nat) → List ν → ν × Option ρ

/-- A parser in the middle of its input. -/
structure Parser (τ ν ρ : Type) where
  /-- States and values, the latest first. -/
  stack : List (Nat × ν)
  /-- The terminal that was read and not yet shifted. -/
  ahead : Option τ
  /-- What has not been read. -/
  input : List τ
  /-- The latest terminal that was read. -/
  latest : Option τ
  /-- The latest remark. -/
  remark : Option ρ

/-- How parsing ends. -/
inductive Verdict where
  | accepted
  | rejected
deriving DecidableEq, Repr

namespace Parser

variable {τ ν ρ : Type}

/-- The state on top of the stack. -/
def top (p : Parser τ ν ρ) : Nat := (p.stack.head?.map (·.1)).getD 0

/-- Reads a terminal unless one is waiting. A terminal may bring a remark of its own. -/
def peek (remarkOf : τ → Option ρ) (p : Parser τ ν ρ) : Parser τ ν ρ :=
  match p.ahead, p.input with
  | none, t :: rest =>
    { p with ahead := some t, input := rest, latest := some t,
             remark := (remarkOf t).orElse fun _ => p.remark }
  | _, _ => p

/-- Replaces the symbols of a production by its left side. -/
def reduce (a : Automaton) (meaning : Meaning ν ρ) (n : Nat) (p : Parser τ ν ρ) :
    Option (Parser τ ν ρ) :=
  let production := a.grammar.production n
  let length := production.rhs.length
  let (value, remark) := meaning n ((p.stack.take length).reverse.map (·.2))
  let stack := p.stack.drop length
  let state := (stack.head?.map (·.1)).getD 0
  do
    let s ← a.states[state]?
    let target ← s.moves[production.lhs]?
    return { p with stack := (target, value) :: stack, remark := remark.orElse fun _ => p.remark }

/-- Parses until the start production is complete, nothing is possible, or the fuel is used up. -/
def run (a : Automaton) (meaning : Meaning ν ρ) (terminal : τ → Terminal ν)
    (remarkOf : τ → Option ρ) : (fuel : Nat) → Parser τ ν ρ → Verdict × Parser τ ν ρ
  | 0, p => (.rejected, p)
  | fuel + 1, p =>
    match a.states[p.top]? with
    | none => (.rejected, p)
    | some state =>
      let p := if state.readsAhead then p.peek remarkOf else p
      let next : Option (Terminal ν) := if state.readsAhead then p.ahead.map terminal else none
      match next.bind fun t => (state.moves[t.symbol]?).map fun target => (target, t.value) with
      | some (target, value) =>
        run a meaning terminal remarkOf fuel
          { p with stack := (target, value) :: p.stack, ahead := none }
      | none =>
        match Automaton.State.reduction? state ((next.map (·.symbol)).getD "") with
        | none => (.rejected, p)
        | some 0 => (.accepted, p)
        | some n =>
          match p.reduce a meaning n with
          | none => (.rejected, p)
          | some p => run a meaning terminal remarkOf fuel p

end Parser

end Contour.Grammar
