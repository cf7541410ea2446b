import Edi.Loop.Rule

namespace Edi

namespace LoopRule

def toJson (r : LoopRule) : Json :=
  .object [("loop_name", .ofOption r.loop), ("segment", .string r.segment),
    ("level", .natural r.level), ("context", .string r.context)]

/-- Reads a rule from its four parts. Its loop and its context may be missing, and then it opens no
loop and holds everywhere. -/
def ofParts? (loop segment level context : Option Json) : Option LoopRule := do
  let loop ← match loop with
    | none | some .null => some none
    | some (.string name) => some (some name)
    | some _ => none
  let segment ← match segment with
    | some (.string s) => some s
    | _ => none
  let level ← match level with
    | some (.natural n) => if n < UInt64.size then some n else none
    | _ => none
  let context ← match context with
    | none => some anyContext
    | some (.string s) => some s
    | some _ => none
  some { loop, segment, level, context }

def ofJson? : Json → Option LoopRule
  | .object members =>
    ofParts? (Json.member? members "loop_name") (Json.member? members "segment")
      (Json.member? members "level") (Json.member? members "context")
  | .array [loop, segment, level] => ofParts? (some loop) (some segment) (some level) none
  | .array [loop, segment, level, context] =>
    ofParts? (some loop) (some segment) (some level) (some context)
  | _ => none

end LoopRule

namespace LoopTable

def toJson (t : LoopTable) : Json := .array (t.rules.map LoopRule.toJson)

def ofJson? : Json → Option LoopTable
  | .array items => (items.mapM LoopRule.ofJson?).map LoopTable.mk
  | _ => none

end LoopTable

end Edi
