/-
# An engine

Regular expressions are read as in Regular/Reader and searched for by automata. This is one engine
among others, for programs that bring none of their own: it knows a part of the notation only, in
which groups have no names and properties and flags are few, and refuses the rest. Nothing that is
said about grammars and lexers is about this engine. It meets what they ask of any
(`Regular.engine_endsOnCharacters`).

Key definition: `Regular.engine`.
Key theorem: `Regular.engine_endsOnCharacters`.
-/
import SqlDoc.Lexer.Engine
import SqlDoc.Regular.Automaton
import SqlDoc.Regular.Reader

namespace SqlDoc

/-- The automaton of an expression as it is asked by a lexer. -/
def Automaton.toRegex (a : Automaton) : Regex where
  isMatch := a.occursIn
  matchEnd? text := (a.find? text).map fun stop => Text.byteLength (text.take stop.seen)

namespace Regular

/-- What is wrong with the text of an expression, in words. -/
def ReadError.message : ReadError → String
  | unclosedGroup => "a group is not closed"
  | unopenedGroup => "a group is closed that was not opened"
  | unclosedClass => "a class is not closed"
  | unclosedRepetition => "a repetition is not closed"
  | unexpectedEnd => "the expression ends too early"
  | missingOperand => "there is nothing to repeat"
  | invalidRepetition => "the bounds of a repetition are no numbers in order"
  | invalidClassItem => "a class holds what is no character and no set"
  | invalidRange => "the ends of a range are not in order"
  | lookAround => "look-around is not known"
  | backReference => "references back to a group are not known"
  | unknownEscape => "an escape is not known"
  | unknownFlag => "a flag is not known, or set twice"
  | unknownProperty => "a property is not known"
  | tooDeep => "the expression has too many levels"
  | tooLarge => "the expression takes too much room"

/-- The engine that reads expressions and searches for them with automata. -/
def engine : RegexEngine where
  compile expression :=
    match read expression with
    | .error e => .error e.message
    | .ok p => .ok (Automaton.ofRegular p).toRegex

/-- It ends matches where characters end. -/
theorem engine_endsOnCharacters : engine.EndsOnCharacters := by
  intro expression r hcompile text n hn
  simp only [engine] at hcompile
  split at hcompile <;> cases hcompile
  obtain ⟨stop, -, rfl⟩ := Option.map_eq_some_iff.1 hn
  exact ⟨_, _, Text.splitBytes?_eq_some_iff.2 ⟨List.take_append_drop stop.seen text, rfl⟩⟩

end Regular
end SqlDoc
