import Edi.Occurrence
import Edi.Scanner

namespace Edi.Segment

structure Body where
  tag : String
  fields : List Field := []
  start : Nat
  repeats : Bool := false
  current : Occurrence := {}
  deriving DecidableEq, Repr

/-- A segment while it is read: first its tag, letter by letter, newest first. -/
inductive Part
  | tag (letters : List Char)
  | body (b : Body)
  deriving DecidableEq, Repr

def Body.position (b : Body) : Nat :=
  let last := (b.fields.head?.map (·.position)).getD 0
  if b.repeats then last else last + 1

def Body.endOccurrence (trims : Bool) (stop : Nat) (repeats : Bool) (b : Body) : Body :=
  { b with
    fields := ⟨b.position, b.repeats, b.current.value trims, ⟨b.start, stop⟩⟩ :: b.fields
    start := stop + 1
    repeats
    current := {} }

def maxTagLength : Nat := 8

def isTagLetter (c : Char) : Bool := c.isAlphanum

def recognizer (d : Delimiters) (trims : Bool) (maxLength start : Nat) :
    Recognizer Part Segment where
  feed part offset c k :=
    match part with
    | .tag letters =>
      if k = .field ∨ k = .data ∧ some c = d.tag then
        if letters = [] then .take (.error (.malformedSegment start "empty segment tag"))
        else .more (.body { tag := String.ofList letters.reverse, start := offset })
      else if k = .terminator then
        if letters = [] then .take (.error (.malformedSegment start "empty segment tag"))
        else .take (.ok ⟨String.ofList letters.reverse, [], ⟨start, offset⟩⟩)
      else if k = .data ∧ isTagLetter c then
        if maxTagLength ≤ letters.length then
          .take (.error (.malformedSegment offset
            "segment tag too long; the delimiters are probably wrong"))
        else .more (.tag (c :: letters))
      else
        .take (.error (.malformedSegment (offset - 1)
          ("unexpected " ++ Text.quoteChar c ++ " in segment tag")))
    | .body b =>
      match b.current.step c k with
      | .grown o =>
        if maxLength < o.length then .take (.error (.elementTooLong maxLength offset))
        else .more (.body { b with current := o })
      | .ended .terminator =>
        .take (.ok ⟨b.tag, (b.endOccurrence trims (offset - 1) false).fields.reverse,
          ⟨start, offset⟩⟩)
      | .ended s => .more (.body (b.endOccurrence trims (offset - 1) (s = .repetition)))
  finish part offset :=
    match part with
    | .tag _ => .take (.error (.unexpectedEnd offset "segment terminator"))
    | .body b =>
      if b.current.released then .take (.error (.unexpectedEnd offset "character after release"))
      else .leave (.error (.unexpectedEnd offset "segment terminator"))

theorem recognizer_feed_ne_leave (d : Delimiters) (trims : Bool) (maxLength start : Nat) (p : Part)
    (offset : Nat) (c : Char) (k : CharClass) (a : Except Error Segment) :
    (recognizer d trims maxLength start).feed p offset c k ≠ .leave a := by
  simp only [recognizer]
  repeat' split
  all_goals simp

theorem recognizer_finish_ne_ok (d : Delimiters) (trims : Bool) (maxLength start : Nat) (p : Part)
    (offset : Nat) (s : Segment) :
    (recognizer d trims maxLength start).finish p offset ≠ .take (.ok s) ∧
      (recognizer d trims maxLength start).finish p offset ≠ .leave (.ok s) := by
  simp only [recognizer]
  repeat' split
  all_goals simp

end Edi.Segment

namespace Edi.Scanner

/-- The next segment, none when only blanks are left. -/
def segment (t : Scanner) : Except Error (Option Segment) × Scanner :=
  match t.skipBlank with
  | (.error e, t) => (.error e, t)
  | (.ok false, t) => (.ok none, t)
  | (.ok true, t) =>
    match { t with segmentText := [], repeats := false, pendingEnd := none }.recognize
        (Segment.recognizer t.delimiters t.trims t.maxElementLength t.offset) (.tag []) with
    | (.error e, t) => (.error e, t)
    | (.ok s, t) => (.ok (some s), { t with segmentCount := t.segmentCount + 1 })

theorem segment_bound (t : Scanner) : t.segment.2.bound ≤ t.bound := by
  have hs := t.skipBlank_bound
  simp only [segment]
  split
  · next h => simpa [h] using hs
  · next h => simpa [h] using hs
  · next u h =>
    have hr := recognize_bound
      (Segment.recognizer u.delimiters u.trims u.maxElementLength u.offset) (.tag [])
      { u with segmentText := [], repeats := false, pendingEnd := none }
    rw [h] at hs
    split <;> simp_all [bound] <;> omega

theorem segment_lt {t t' : Scanner} {s : Segment} (h : t.segment = (.ok (some s), t')) :
    t'.bound < t.bound := by
  have hs := t.skipBlank_bound
  simp only [segment] at h
  split at h
  · simp at h
  · simp at h
  · next u hu =>
    rw [hu] at hs
    split at h
    · simp at h
    · next hr =>
      have hl := recognize_lt (Segment.recognizer_feed_ne_leave _ _ _ _)
        (Segment.recognizer_finish_ne_ok _ _ _ _) hr
      simp only [Prod.mk.injEq] at h
      simp only [← h.2, bound] at hl hs ⊢
      omega

end Edi.Scanner
