import Edi.Proofs.Reader.Follow
import Edi.Proofs.Scanner.Agree
import Edi.Proofs.SegmentText

namespace Edi

namespace Scanner

variable {t u : Scanner} {text : List Char} {last : Span}

theorem segment_rules (t : Scanner) : t.SameRules t.segment.2 := by
  have hs {v : Scanner} (h : t.SameSettings v) : t.SameRules v :=
    ⟨congrArg Delimiters.bare h.delimiters, h.trims, h.maxElementLength⟩
  simp only [segment]
  split
  · next h => exact hs (skipBlank_settings h)
  · next h => exact hs (skipBlank_settings h)
  · next h =>
    have hv := hs (skipBlank_settings h)
    split <;> next hr =>
      have hw := recognize_settings hr
      exact ⟨(congrArg Delimiters.bare hw.delimiters).trans hv.delimiters, hw.trims.trans hv.trims,
        hw.maxElementLength.trans hv.maxElementLength⟩

theorem after_rules (n : Nat) (t : Scanner) : t.SameRules (t.after n) := by
  induction n generalizing t with
  | zero => exact ⟨rfl, rfl, rfl⟩
  | succ n ih => exact t.segment_rules.trans (ih _)

def answers (n : Nat) (t : Scanner) : List (Except Error (Option Segment) × Nat) :=
  (t.calls n).map fun x ↦ (x.1, x.2.offset)

theorem answers_of_segment (h : Lockstep (Error.shiftOr 0 (Option.map (·.shift 0))) (Agree 0)
    t.segment u.segment) (n : Nat) : u.answers n = t.answers n := by
  induction n generalizing t u with
  | zero => rfl
  | succ n ih =>
    obtain ⟨answer, t', u', ht, hu, h'⟩ := h
    rw [Error.shiftOr_zero (fun o ↦ by cases o <;> simp)] at hu
    have hr := ih h'.segment
    simp only [answers] at hr ⊢
    simp only [calls, ht, hu, List.map_cons, hr, h'.offset, Nat.add_zero]

theorem answers_handedOff (h : t.ShowsLast text last) (limits : Limits)
    (htrims : limits.trims = t.trims) (hmax : limits.maxElementLength = t.maxElementLength)
    {delimiters : Delimiters} (hd : delimiters.bare = t.delimiters.bare) (n : Nat) :
    (ofRemainder delimiters limits t.remainder).answers n = t.answers n := by
  obtain ⟨rest, hr, hc, -⟩ := h.stands.holds
  have hk := Cursor.holds_ofRemainder (a := t.remainder) ⟨rest, hr, hc⟩ limits.bufferCapacity
  have hl : (ofRemainder delimiters limits t.remainder).cursor.last ≠ .endOfInput :=
    LastRead.noConfusion
  exact answers_of_segment (segment_of_holds h.stands.holds hk h.stands.last_ne hl rfl
    ⟨hd, htrims, hmax⟩) n

/-- A scanner that takes over after some segments reads the same ones, or the same error or end,
as the first one would have, and comes to the same offsets. Only how far ahead is read and whether
the text is kept may differ. -/
theorem answers_handedOff_after {source : Source} (hs : source.Holds text)
    (delimiters : Delimiters) (limits limits' : Limits) (htrims : limits'.trims = limits.trims)
    (hmax : limits'.maxElementLength = limits.maxElementLength) (k : Nat)
    (h : ∀ x ∈ (ofRemainder delimiters limits { source }).calls k, x.1.isOk) (n : Nat) :
    let t := (ofRemainder delimiters limits { source }).after k
    (ofRemainder delimiters limits' t.remainder).answers n = t.answers n := by
  intro t
  have ht : t.ShowsLast text _ := ((showsLast_start hs delimiters limits).after rfl k h).1
  have hr := after_rules k (ofRemainder delimiters limits { source })
  exact answers_handedOff ht limits' (htrims.trans hr.trims.symm)
    (hmax.trans hr.maxElementLength.symm) hr.delimiters.symm n

/-- The takeover is between two segments, with some of the text ahead, and the text breaks off. -/
theorem answers_handedOff_after_first :
    let text := "AB+1'\r\nCD+2:3+?''  EF+4".toList
    let start := ofRemainder .edifact { bufferCapacity := 0 } { source := .text text }
    let u := ofRemainder .edifact { retainsText := true } (start.after 1).remainder
    (∀ x ∈ start.calls 1, x.1.isOk) ∧ (start.after 1).buffered.length = 11 ∧
      u.answers 3 = (start.after 1).answers 3 ∧ (u.answers 3).map (·.2) = [17, 23, 23] := by
  intro text start u
  have h : ∀ x ∈ start.calls 1, x.1.isOk := by decide +kernel
  have hs : (Source.text text).Holds text := rfl
  refine ⟨h, by decide +kernel, ?_, by decide +kernel⟩
  exact answers_handedOff_after hs .edifact { bufferCapacity := 0 } { retainsText := true } rfl rfl
    1 h 3

end Scanner

end Edi
