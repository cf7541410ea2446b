import Edi.Segment.Recognizer

namespace Edi.Scanner

/-- The segments read one after the other, until none is left or one cannot be read. -/
def segments (t : Scanner) : List Segment :=
  match _h : t.segment with
  | (.ok (some s), u) => s :: u.segments
  | _ => []
termination_by t.bound
decreasing_by exact segment_lt _h

def after : Nat → Scanner → Scanner
  | 0, t => t
  | n + 1, t => after n t.segment.2

variable {t u : Scanner} {s : Segment} {ss : List Segment}

theorem segments_of_segment (h : t.segment = (.ok (some s), u)) : t.segments = s :: u.segments := by
  rw [segments]
  split
  · next h' =>
    obtain ⟨hs, rfl⟩ := Prod.mk.inj (h'.symm.trans h)
    obtain rfl := Option.some.inj (Except.ok.inj hs)
    rfl
  · next h' => exact absurd h (h' s u)

theorem segments_of_ne (h : ∀ s, t.segment.1 ≠ .ok (some s)) : t.segments = [] := by
  rw [segments]
  split
  · next s u h' => exact absurd (congrArg Prod.fst h') (h s)
  · rfl

theorem segment_of_segments_cons (h : t.segments = s :: ss) :
    ∃ u, t.segment = (.ok (some s), u) ∧ u.segments = ss := by
  rw [segments] at h
  split at h
  · next s' u h' =>
    obtain ⟨rfl, rfl⟩ := List.cons.inj h
    exact ⟨u, h', rfl⟩
  · simp at h

end Edi.Scanner
