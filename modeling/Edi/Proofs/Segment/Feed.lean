import Edi.Segment.Recognizer

namespace Edi

namespace Occurrence

/-- How an occurrence grows by a character. What was released is data, whatever its class is. -/
inductive Grows (c : Char) (k : CharClass) (o : Occurrence) : Occurrence → Prop
  | data (h : o.released ∨ k = .data) : Grows c k o (o.push c)
  | release (hr : o.released = false) (hk : k = .release) : Grows c k o { o with released := true }
  | subElement (hr : o.released = false) (hk : k = .subElement) : Grows c k o o.endPart
  | subSubElement (hr : o.released = false) (hk : k = .subSubElement) : Grows c k o o.endPiece

variable {o o' : Occurrence} {c : Char} {k : CharClass}

theorem step_eq_grown (h : o.step c k = .grown o') : o.Grows c k o' := by
  simp only [step] at h
  split at h
  · next hr => exact Step.grown.inj h ▸ .data (.inl hr)
  · next hr =>
    have hr : o.released = false := by simpa using hr
    cases k <;> simp only [reduceCtorEq, Step.grown.injEq] at h
    · exact h ▸ .data (.inr rfl)
    · exact h ▸ .subElement hr rfl
    · exact h ▸ .subSubElement hr rfl
    · exact h ▸ .release hr rfl

end Occurrence

namespace Segment

/-- How the reading of a segment goes on with a character, just behind which is the offset: with
its tag, its first element, the element at hand or the next one. -/
inductive Part.GoesOn (d : Delimiters) (trims : Bool) (offset : Nat) (c : Char) (k : CharClass) :
    Part → Part → Prop
  | letter {letters : List Char} (hk : k = .data) :
      GoesOn d trims offset c k (.tag letters) (.tag (c :: letters))
  | tagEnd {letters : List Char} (hk : k = .field ∨ k = .data ∧ some c = d.tag)
      (h : letters ≠ []) : GoesOn d trims offset c k (.tag letters)
        (.body { tag := String.ofList letters.reverse, start := offset })
  | grown {b : Body} {o : Occurrence} (h : b.current.step c k = .grown o) :
      GoesOn d trims offset c k (.body b) (.body { b with current := o })
  | ended {b : Body} {s : Separator} (h : b.current.step c k = .ended s) (hs : s ≠ .terminator) :
      GoesOn d trims offset c k (.body b)
        (.body (b.endOccurrence trims (offset - 1) (s = .repetition)))

inductive Part.Ends (trims : Bool) (start offset : Nat) (c : Char) (k : CharClass) :
    Part → Segment → Prop
  | tag {letters : List Char} (hk : k = .terminator) (h : letters ≠ []) :
      Ends trims start offset c k (.tag letters)
        ⟨String.ofList letters.reverse, [], ⟨start, offset⟩⟩
  | body {b : Body} (h : b.current.step c k = .ended .terminator) :
      Ends trims start offset c k (.body b)
        ⟨b.tag, (b.endOccurrence trims (offset - 1) false).fields.reverse, ⟨start, offset⟩⟩

variable {d : Delimiters} {trims : Bool} {maxLength start offset : Nat} {p p' : Part} {c : Char}
  {k : CharClass} {s : Segment}

theorem recognizer_feed_eq_more
    (hf : (recognizer d trims maxLength start).feed p offset c k = .more p') :
    p.GoesOn d trims offset c k p' := by
  cases p with
  | tag letters =>
    simp only [recognizer] at hf
    repeat' split at hf
    all_goals simp only [reduceCtorEq, Verdict.more.injEq] at hf
    · exact hf ▸ .tagEnd ‹_› ‹_›
    · next hk _ => exact hf ▸ .letter hk.1
  | body b =>
    simp only [recognizer] at hf
    split at hf
    · next o ho =>
      split at hf
      · cases hf
      · exact Verdict.more.inj hf ▸ .grown ho
    · cases hf
    · next s hs ho => exact Verdict.more.inj hf ▸ .ended ho hs

theorem recognizer_feed_eq_take
    (hf : (recognizer d trims maxLength start).feed p offset c k = .take (.ok s)) :
    p.Ends trims start offset c k s := by
  cases p with
  | tag letters =>
    simp only [recognizer] at hf
    repeat' split at hf
    all_goals simp only [reduceCtorEq, Verdict.take.injEq, Except.ok.injEq] at hf
    exact hf ▸ .tag ‹_› ‹_›
  | body b =>
    simp only [recognizer] at hf
    split at hf
    · split at hf <;> cases hf
    · next ho => exact Except.ok.inj (Verdict.take.inj hf) ▸ .body ho
    · cases hf

end Segment

end Edi
