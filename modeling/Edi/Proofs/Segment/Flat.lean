import Edi.Proofs.Delimiters
import Edi.Proofs.Scanner.Frame
import Edi.Proofs.Segment.Feed

namespace Edi

def Value.Flat (v : Value) : Prop :=
  ∀ parts, v = .composite parts → ∀ pieces ∈ parts, pieces.length = 1

def Segment.Flat (s : Segment) : Prop := ∀ f ∈ s.fields, f.value.Flat

namespace Occurrence

variable {o o' : Occurrence} {c : Char} {k : CharClass}

def Flat (o : Occurrence) : Prop := o.pieces = [] ∧ ∀ part ∈ o.parts, part.length = 1

theorem empty_flat : ({} : Occurrence).Flat := by simp [Flat]

theorem Flat.endPart (h : o.Flat) : o.endPart.Flat := by
  refine ⟨rfl, ?_⟩
  simpa [Occurrence.endPart, openPart, h.1] using h.2

theorem Flat.step (h : o.Flat) (hk : k ≠ .subSubElement) (hs : o.step c k = .grown o') :
    o'.Flat := by
  cases step_eq_grown hs with
  | data => exact h
  | release => exact h
  | subElement => exact h.endPart
  | subSubElement => contradiction

theorem Flat.value (h : o.Flat) (trims : Bool) : (o.value trims).Flat := by
  intro parts hv
  simp only [Occurrence.value] at hv
  split at hv
  · obtain rfl := Value.composite.inj hv
    have ho : o.openPart.length = 1 := by simp [openPart, h.1]
    simpa [ho, or_imp, forall_and] using h.2
  · simp at hv

end Occurrence

namespace Segment

def Part.Flat : Part → Prop
  | .tag _ => True
  | .body b => (∀ f ∈ b.fields, f.value.Flat) ∧ b.current.Flat

variable {d : Delimiters} {trims : Bool} {maxLength start offset : Nat} {p p' : Part} {c : Char}

theorem Body.endOccurrence_flat {b : Body} (h : Part.Flat (.body b)) (stop : Nat)
    (repeats : Bool) : Part.Flat (.body (b.endOccurrence trims stop repeats)) := by
  refine ⟨?_, Occurrence.empty_flat⟩
  intro f hf
  rcases List.mem_cons.1 hf with rfl | hf
  · exact h.2.value trims
  · exact h.1 f hf

theorem recognizer_feed_flat (hd : d.subSubElement = none) (h : p.Flat)
    (hf : (recognizer d trims maxLength start).feed p offset c (d.classify c) = .more p') :
    p'.Flat := by
  cases recognizer_feed_eq_more hf with
  | letter => trivial
  | tagEnd => exact ⟨by simp, Occurrence.empty_flat⟩
  | grown ho => exact ⟨h.1, h.2.step (Delimiters.classify_ne .subSubElement hd (by simp) c) ho⟩
  | ended => exact Body.endOccurrence_flat h _ _

theorem recognizer_take_flat {s : Segment} (h : p.Flat) {k : CharClass}
    (hf : (recognizer d trims maxLength start).feed p offset c k = .take (.ok s)) : s.Flat := by
  cases recognizer_feed_eq_take hf with
  | tag => exact nofun
  | body =>
    intro f hf
    exact (Body.endOccurrence_flat h (offset - 1) false).1 f (List.mem_reverse.1 hf)

end Segment

namespace Scanner

variable {t u : Scanner} {s : Segment}

theorem segment_flat (hd : t.delimiters.subSubElement = none)
    (h : t.segment = (.ok (some s), u)) : s.Flat := by
  simp only [segment] at h
  split at h
  · simp at h
  · simp at h
  · next v hv =>
    have hdv : v.delimiters.subSubElement = none := by
      rw [← hd, ← t.skipBlank_delimiters, hv]
    split at h
    · simp at h
    · next hr =>
      obtain ⟨hs, -⟩ := Prod.mk.inj h
      obtain rfl := Option.some.inj (Except.ok.inj hs)
      have hz : Segment.Part.Flat (.tag []) := trivial
      refine recognize_invariant (p := Segment.Part.Flat) (q := Segment.Flat) ?_ ?_ ?_ hz hr
      · exact fun p _ c p' hp hm ↦ Segment.recognizer_feed_flat hdv hp hm
      · rintro p _ c s hp (ht | hl)
        · exact Segment.recognizer_take_flat hp ht
        · exact absurd hl (Segment.recognizer_feed_ne_leave _ _ _ _ _ _ _ _ _)
      · rintro p _ s hp (ht | hl)
        · exact absurd ht (Segment.recognizer_finish_ne_ok _ _ _ _ _ _ _).1
        · exact absurd hl (Segment.recognizer_finish_ne_ok _ _ _ _ _ _ _).2

end Scanner

end Edi
