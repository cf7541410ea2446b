import Edi.Event
import Edi.Loop.Rule

namespace Edi

/-- An open loop, or a boundary without a name. -/
structure Frame where
  name : Option String
  level : Nat
  deriving DecidableEq, Repr

structure LoopNesting where
  table : Option LoopTable
  frames : List Frame
  /-- The names of the open loops, each after a slash. -/
  path : String
  deriving DecidableEq, Repr

namespace LoopNesting

def start (table : Option LoopTable) : LoopNesting :=
  { table, frames := [], path := LoopRule.rootPath }

def idle : LoopNesting := { table := none, frames := [], path := "" }

def isEnabled (n : LoopNesting) : Bool := n.table.isSome

def depth (n : LoopNesting) : Nat := n.frames.length

def openLoops (frames : List Frame) : List String := frames.reverse.filterMap Frame.name

def renderPath (frames : List Frame) : String :=
  match openLoops frames with
  | [] => LoopRule.rootPath
  | names => String.join (names.map ("/" ++ ·))

def endEvents (closed : List Frame) : List Event :=
  (closed.filterMap Frame.name).map fun _ ↦ .elementEnd ElementName.loop

def withFrames (frames : List Frame) (n : LoopNesting) : LoopNesting :=
  { n with frames, path := renderPath frames }

/-- What a rule does: it closes the frames deeper than some level, and then opens its own. -/
def apply (r : LoopRule) (n : LoopNesting) : Bool × List Event × LoopNesting :=
  let deeper (level : Nat) (f : Frame) : Bool := level < f.level
  match r.loop with
  | none =>
    let closed := n.frames.takeWhile (deeper r.level)
    if closed.isEmpty then (false, [], n)
    else (true, endEvents closed, n.withFrames (n.frames.dropWhile (deeper r.level)))
  | some name =>
    let closed := n.frames.takeWhile (deeper (r.level - 1))
    let kept := n.frames.dropWhile (deeper (r.level - 1))
    if name = LoopRule.anonymous then
      (true, endEvents closed, n.withFrames (⟨none, r.level⟩ :: kept))
    else
      (true,
        endEvents closed ++ [.elementStart ElementName.loop (.ofList [("Id", name)])],
        n.withFrames (⟨some name, r.level⟩ :: kept))

/-- Meets a segment. Tells whether a frame was opened or closed. -/
def transition (segment : String) (n : LoopNesting) : Bool × List Event × LoopNesting :=
  match n.table.bind (LoopTable.select? segment n.path) with
  | none => (false, [], n)
  | some r => n.apply r

def closeAll (n : LoopNesting) : List Event × LoopNesting :=
  (endEvents n.frames, n.withFrames [])

end LoopNesting

end Edi
