import MailMerge.Json
import MailMerge.Yaml.Token.Basic

/-!
# Interpreters

Reading data and rendering it takes calls inside of each other, as many as lists and mappings are
inside of each other. How many there is room for is up to the interpreter and to the calls that it is
in already, so it is given with the work to do.
-/

namespace MailMerge

/-- What an interpreter has room for: lists and mappings of JSON, nodes of YAML, calls that render a
value, and calls that show one. -/
structure Interpreter where
  json : Json.Room
  yaml : Yaml.Room
  rendering : Value.Room
  shows : Value → Bool

namespace Value

mutual

/-- How many values are inside of each other in the text that stands for a value. -/
def nesting : Value → Nat
  | list items | tuple items | set items => nestingAll items + 1
  | mapping entries => nestingEntries entries + 1
  | _ => 1

def nestingAll : List Value → Nat
  | [] => 0
  | v :: rest => max v.nesting (nestingAll rest)

def nestingEntries : List (Value × Value) → Nat
  | [] => 0
  | (k, v) :: rest => max (max k.nesting v.nesting) (nestingEntries rest)

end

/-- The calls inside of each other that render a value, but those for its items. -/
def calls : Value → Nat
  | null | bool _ | text _ | again _ => 0
  | list _ | tuple _ => 1
  | v => v.nesting + 1

/-- Room for a number of calls inside of each other, of which each list takes three. -/
def Room.ofLimit (limit : Nat) : Room where
  fits n v := decide (3 * n + v.calls ≤ limit)
  mono h := by
    simp only [decide_eq_true_eq] at h ⊢
    omega

end Value

namespace Interpreter

/-- An interpreter with its usual limit of a thousand calls, some of which the program has made before
it comes to the data. -/
def usual : Interpreter where
  json depth _ := depth < 987
  yaml := ⟨fun depth _ => depth < 490, fun depth _ => depth < 980, fun depth _ => depth < 980⟩
  rendering := .ofLimit 990
  shows v := v.nesting < 980

end Interpreter

end MailMerge
