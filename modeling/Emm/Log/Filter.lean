import Emm.Log.Event

/-!
Log filters such as `info,nextgsim_mme=debug`. Of the directives whose target an event comes from,
the one with the longest target decides from which level on the event is logged.
-/

namespace Emm.Log

structure Directive where
  /-- The part of the program that the directive is about, with all that lies within it. -/
  target : Option String := none
  /-- The least level that is logged, if any is. -/
  threshold : Option Level
deriving DecidableEq

namespace Directive

/-- A level by its name, or by a number that grows with how much is logged. The outer `Option` tells
whether the text names one. -/
def threshold? (s : String) : Option (Option Level) :=
  match if s.toList.all Char.isDigit then s.toNat? else none with
  | some 0 => some none
  | some 1 => some (some .error)
  | some 2 => some (some .warn)
  | some 3 => some (some .info)
  | some 4 => some (some .debug)
  | some 5 => some (some .trace)
  | some _ => none
  | none =>
      match String.ofList (s.toList.map Char.toLower) with
      | "off" => some none
      | "error" => some (some .error)
      | "warn" => some (some .warn)
      | "info" => some (some .info)
      | "debug" => some (some .debug)
      | "trace" => some (some .trace)
      | _ => none

/-- The characters with which a directive may begin. -/
def mayBegin (c : Char) : Bool := c.isAlphanum || 0x80 ≤ c.toNat || ['-', ':', '_'].contains c

/-- A directive is a level, a target, or both with an equals sign between them. A target alone is
logged from the lowest level on. Brackets would select by span; events have none, so a directive
with brackets is about no event. -/
def parse? (s : String) : Option Directive :=
  let cs := s.toList
  if !(cs.head?.map mayBegin).getD false || cs.contains '[' then none
  else
    let target := String.ofList (cs.takeWhile (· ≠ '='))
    match cs.dropWhile (· ≠ '=') with
    | [] =>
        match threshold? target with
        | some threshold => some { threshold }
        | none => some { target, threshold := some .trace }
    | ['='] => some { target, threshold := some .trace }
    | _ :: level => (threshold? (String.ofList level)).map fun threshold => { target, threshold }

/-- Is the directive about what comes from `target`? -/
def covers (d : Directive) (target : String) : Bool :=
  match d.target with
  | none => true
  | some t => t.toList.isPrefixOf target.toList

/-- The longer the target, the more it says. -/
def weight (d : Directive) : Nat :=
  match d.target with
  | none => 0
  | some t => t.utf8ByteSize + 1

end Directive

structure Filter where
  directives : List Directive

namespace Filter

/-- Takes the directives between commas. Those that make no sense are left out; if none remain, only
errors are logged. -/
def parse (s : String) : Filter :=
  match (s.splitOn ",").filterMap Directive.parse? with
  | [] => ⟨[{ threshold := some .error }]⟩
  | ds => ⟨ds⟩

/-- The directive that decides about what comes from `target`: the last of the weightiest. -/
def deciding? (f : Filter) (target : String) : Option Directive :=
  f.directives.foldl
    (fun best d => if d.covers target && best.all (·.weight ≤ d.weight) then some d else best) none

def admits (f : Filter) (e : Entry) : Bool :=
  match (f.deciding? e.target).bind Directive.threshold with
  | some level => level.rank ≤ e.level.rank
  | none => false

end Filter

/-- The line that an event is logged as, without the time. -/
def Entry.line (e : Entry) : String :=
  e.level.name ++ " " ++ e.target ++ ": " ++ e.message ++
    String.join (e.fields.map fun (name, value) => " " ++ name ++ "=" ++ value)

end Emm.Log
