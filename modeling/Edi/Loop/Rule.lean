import Edi.Json
import Edi.Standard

namespace Edi

structure LoopRule where
  /-- The loop that the segment opens, `.` for a frame without a name. A rule without a loop
  only closes loops. -/
  loop : Option String
  segment : String
  level : Nat
  /-- The loops inside which the rule holds, as a path; `*` for everywhere. -/
  context : String
  deriving DecidableEq, Repr

inductive ContextMatch
  | wildcard
  | ancestor
  | exact
  deriving DecidableEq, Repr

def ContextMatch.rank : ContextMatch → Nat
  | wildcard => 0
  | ancestor => 1
  | exact => 2

namespace LoopRule

def anyContext : String := "*"

def anonymous : String := "."

def rootPath : String := "/"

/-- A context without the slashes at its end; only slashes are the root. -/
def normalContext (context : String) : String :=
  let trimmed := String.ofList (context.toList.reverse.dropWhile (· = '/')).reverse
  if trimmed.isEmpty then rootPath else trimmed

def contextMatch? (path : String) (r : LoopRule) : Option ContextMatch :=
  if r.context = anyContext then some .wildcard
  else
    let context := normalContext r.context
    if context = path then some .exact
    else if context = rootPath ∨ (context.toList ++ ['/']).isPrefixOf path.toList then
      some .ancestor
    else none

end LoopRule

structure LoopTable where
  rules : List LoopRule
  deriving DecidableEq, Repr

namespace LoopTable

def size (t : LoopTable) : Nat := t.rules.length

def isEmpty (t : LoopTable) : Bool := t.rules.isEmpty

/-- The earliest of the candidates with the best match. -/
def best : List (ContextMatch × LoopRule) → Option (ContextMatch × LoopRule)
  | [] => none
  | c :: cs =>
    match best cs with
    | none => some c
    | some b => if c.1.rank < b.1.rank then some b else some c

def select? (segment path : String) (t : LoopTable) : Option LoopRule :=
  (best ((t.rules.filter (·.segment = segment)).filterMap fun r ↦
    (r.contextMatch? path).map (·, r))).map Prod.snd

end LoopTable

structure LoopTables where
  entries : List ((Standard × String) × LoopTable) := []
  deriving DecidableEq, Repr

namespace LoopTables

def register (standard : Standard) (documentType : String) (table : LoopTable) (t : LoopTables) :
    LoopTables :=
  let key := (standard, documentType)
  if t.entries.any (·.1 = key) then
    { entries := t.entries.map fun e ↦ if e.1 = key then (key, table) else e }
  else { entries := t.entries ++ [(key, table)] }

def find? (standard : Standard) (documentType : String) (t : LoopTables) : Option LoopTable :=
  t.entries.lookup (standard, documentType)

def size (t : LoopTables) : Nat := t.entries.length

def isEmpty (t : LoopTables) : Bool := t.entries.isEmpty

end LoopTables

end Edi
