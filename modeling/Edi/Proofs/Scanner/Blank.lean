import Edi.Proofs.Cursor
import Edi.Proofs.Scanner.Frame

namespace Edi

namespace Text

/-- What may stand around segments without a meaning. -/
def isBlankChar (c : Char) : Bool := isWhite c || c = '\uFEFF'

def IsBlank (cs : List Char) : Prop := ∀ c ∈ cs, isBlankChar c

theorem isBlank_or_exists (cs : List Char) :
    IsBlank cs ∨ ∃ bs c rest, cs = bs ++ c :: rest ∧ IsBlank bs ∧ isBlankChar c = false := by
  induction cs with
  | nil => exact .inl (by simp [IsBlank])
  | cons c cs ih =>
    cases hc : isBlankChar c with
    | false => exact .inr ⟨[], c, cs, rfl, by simp [IsBlank], hc⟩
    | true =>
      rcases ih with hb | ⟨bs, d, rest, rfl, hb, hd⟩
      · exact .inl (List.forall_mem_cons.2 ⟨hc, hb⟩)
      · exact .inr ⟨c :: bs, d, rest, rfl, List.forall_mem_cons.2 ⟨hc, hb⟩, hd⟩

end Text

namespace Scanner

open Text

variable {t u : Scanner} {bs cs : List Char} {c : Char}

theorem next_offset (h : t.next = (.ok (some c), u)) : u.offset = t.offset + 1 := by
  simp only [next] at h
  split at h
  · simp at h
  · simp at h
  · next hk =>
    obtain ⟨hc, rfl⟩ := Prod.mk.inj h
    rw [hc] at hk
    exact Cursor.next_offset hk

theorem next_of_holds_cons (h : t.cursor.Holds (c :: cs)) : ∃ u, t.next = (.ok (some c), u) ∧
    u.cursor.Holds cs ∧ u.offset = t.offset + 1 ∧ u.cursor.last = .character ∧
    u.cursor.behind.head? = some c := by
  obtain ⟨k, hk, hh, ho, hl, hb⟩ := h.next_cons Source.holds_forecast
  refine ⟨{ t with
    cursor := k, segmentText := c :: t.segmentText, retained := t.retained.map (c :: ·) }, ?_, hh,
    ho, hl, hb⟩
  rw [next, hk]

theorem skipBlank_eq (t : Scanner) :
    t.skipBlank =
      match t.next with
      | (.error e, t) => (.error e, t)
      | (.ok none, t) => t.leave (.ok false)
      | (.ok (some c), t) => if isBlankChar c then t.skipBlank else t.leave (.ok true) := by
  rw [skipBlank, recognize_eq]
  rcases t.next with ⟨e | _ | c, u⟩
  · rfl
  · rfl
  · by_cases hc : isBlankChar c
    · simp only [isBlankChar] at hc
      simp only [isBlankChar, hc, ↓reduceIte]
      rfl
    · simp only [isBlankChar] at hc
      simp only [isBlankChar, hc, Bool.false_eq_true, ↓reduceIte]

theorem leave_of_endOfInput {α : Type} (answer : Except Error α)
    (h : t.cursor.last = .endOfInput) : ∃ u, t.leave answer = (answer, u) := by
  refine ⟨{ t with cursor := { t.cursor with last := .pushedBack } }, ?_⟩
  simp [leave, back, Cursor.back, h]

theorem skipBlank_of_isBlank (hb : IsBlank bs) (h : t.cursor.Holds bs)
    (hl : t.cursor.last ≠ .endOfInput) :
    ∃ u, t.skipBlank = (.ok false, u) ∧ u.cursor.Holds [] ∧
      u.offset = t.offset + bs.length ∧ u.cursor.last = .pushedBack := by
  induction bs generalizing t with
  | nil =>
    obtain ⟨k, hk, ho, hkl, hn⟩ := h.next_nil Source.holds_forecast
    rw [if_neg hl] at hn
    rw [skipBlank_eq]
    simp only [next, hn, leave, back, Cursor.back, hkl]
    exact ⟨_, rfl, hk, ho, rfl⟩
  | cons b bs ih =>
    obtain ⟨hc, hb⟩ := List.forall_mem_cons.1 hb
    obtain ⟨u, hu, hh, huo, hul, -⟩ := next_of_holds_cons h
    obtain ⟨v, hv, hvh, hvo, hvl⟩ := ih hb hh (by simp [hul])
    rw [skipBlank_eq]
    simp only [hu, hc, ↓reduceIte]
    refine ⟨v, hv, hvh, ?_, hvl⟩
    rw [hvo, huo, List.length_cons]
    omega

theorem skipBlank_of_not_isBlank (hb : IsBlank bs) (hc : isBlankChar c = false)
    (h : t.cursor.Holds (bs ++ c :: cs)) (hl : t.cursor.last ≠ .endOfInput) :
    ∃ u, t.skipBlank = (.ok true, u) ∧ u.cursor.Holds (c :: cs) ∧
      u.offset = t.offset + bs.length ∧ u.cursor.last = .pushedBack ∧ t.SameRules u := by
  induction bs generalizing t with
  | nil =>
    obtain ⟨u, hu, ⟨rest, hr, hcs, he⟩, huo, hul, hub⟩ := next_of_holds_cons h
    obtain ⟨hd, ht, hm⟩ := rules_of_next hu
    rw [skipBlank_eq]
    simp only [hu, hc, Bool.false_eq_true, ↓reduceIte]
    refine ⟨{ u with
      cursor := { u.cursor with
        ahead := c :: u.cursor.ahead, behind := u.cursor.behind.tail, offset := t.offset,
        last := .pushedBack }
      segmentText := u.segmentText.tail, retained := u.retained.map List.tail }, ?_,
      ⟨rest, hr, ?_, he⟩, rfl, rfl, hd, ht, hm⟩
    · have ho : u.cursor.offset - 1 = t.offset := by
        simp only [offset] at huo ⊢
        omega
      simp [leave, back, Cursor.back, hul, List.take_one, hub, ho]
    · simp [hcs]
  | cons b bs ih =>
    obtain ⟨hbc, hb⟩ := List.forall_mem_cons.1 hb
    obtain ⟨u, hu, hh, huo, hul, -⟩ := next_of_holds_cons h
    obtain ⟨v, hv, hvh, hvo, hvl, hvr⟩ := ih hb hh (by simp [hul])
    rw [skipBlank_eq]
    simp only [hu, hbc, ↓reduceIte]
    refine ⟨v, hv, hvh, ?_, hvl, (rules_of_next hu).trans hvr⟩
    rw [hvo, huo, List.length_cons]
    omega

end Scanner

end Edi
