import MailMerge.Xml.Reader.Text

/-!
# Reading content models

What the content of an element is made of, in brackets. Marks for how often a part stands there are
put together where brackets hold a single part, and are left out where another one implies them.
-/

namespace MailMerge.Xml

namespace Particle

/-- The parts of a group behind each other, each with the ones behind it in one group. -/
def ofList (connector : Connector) : List Particle → Option Particle
  | [] => none
  | [p] => some p
  | p :: rest => (ofList connector rest).map fun q => group connector p q .once

/-- The particle without a mark that it may be missing, and whether it had one. -/
def loosen (p : Particle) : Particle × Bool :=
  if p.occurs.canMiss then (p.withOccurrence .once, true) else (p, false)

/-- A choice the parts of which are loosened, and whether that has changed one. -/
def relax : Particle → Particle × Bool
  | group .choice first second o =>
    let (first, a) := first.loosen
    let (second, b) := second.relax
    let (second, c) := second.loosen
    (group .choice first second o, a || b || c)
  | p => (p, false)

/-- Relaxes the innermost group that a list of parts makes. -/
def relaxLast : Particle → Nat → Particle × Bool
  | group .choice first second o, depth + 1 =>
    let (second, changed) := second.relaxLast depth
    (group .choice first second o, changed)
  | p, _ => p.relax

end Particle

end MailMerge.Xml

namespace MailMerge.Xml.Reader

/-- The mark for how often a part stands there. -/
def occurrence : Read Occurrence := do
  if ← skip "?" then return .optional
  if ← skip "*" then return .repeated
  if ← skip "+" then return .oneOrMore
  return .once

/-- What brackets with parts in them come to, with the mark behind them. -/
def bracketed (connector : Connector) (parts : List Particle) (o : Occurrence) :
    Option Particle := do
  let p ← Particle.ofList connector parts
  match o with
  | .once => return p
  | .optional =>
    return p.withOccurrence (match p.occurs with
      | .repeated => .repeated
      | .oneOrMore => .repeated
      | _ => .optional)
  | .repeated => return (p.withOccurrence .repeated).relax.1
  | .oneOrMore =>
    let (q, relaxed) := p.relaxLast (parts.length - 2)
    return q.withOccurrence (if relaxed || p.occurs.canMiss then .repeated else .oneOrMore)

/-- The parts of a group behind its opening bracket, and the mark behind the closing one. All parts
are connected alike. `levels` bounds groups in groups. -/
def particles (levels fuel : Nat) (connector? : Option Connector) (done : List Particle) :
    Read Particle :=
  match fuel with
  | 0 => malformed
  | fuel + 1 => do
    let _ ← space
    let p ← if ← skip "(" then
        match levels with
        | 0 => malformed
        | levels' + 1 => particles levels' fuel none []
      else do
        let name ← anyName
        pure (.element name (← occurrence))
    let _ ← space
    if ← skip ")" then
      match bracketed (connector?.getD .sequence) (p :: done).reverse (← occurrence) with
      | some group => return group
      | none => malformed
    else
      let connector : Connector ← if ← skip "," then pure .sequence
        else if ← skip "|" then pure .choice
        else malformed
      if connector?.any (· ≠ connector) then malformed
      particles levels fuel (some connector) (p :: done)
termination_by (levels, fuel)

/-- Characters and elements among them, behind `#PCDATA`. -/
def mixed (fuel : Nat) (done : List Particle) : Read Particle :=
  match fuel with
  | 0 => malformed
  | fuel + 1 => do
    let _ ← space
    if ← skip "|" then
      let _ ← space
      let name ← anyName
      mixed fuel (.element name .once :: done)
    else
      expect ")"
      let isRepeated ← skip "*"
      if !isRepeated && 1 < done.length then malformed
      match Particle.ofList .choice done.reverse with
      | some p => return p.withOccurrence (if isRepeated then .repeated else .once)
      | none => malformed

def contentModel : Read ContentModel := do
  let fuel := (← get).rest.length + 1
  if ← skip "EMPTY" then return .empty
  if ← skip "ANY" then return .any
  expect "("
  let _ ← space
  if ← skip "#PCDATA" then return .particle (← mixed fuel [.characters .once])
  return .particle (← particles (maxDepth - 1) fuel none [])

end MailMerge.Xml.Reader
