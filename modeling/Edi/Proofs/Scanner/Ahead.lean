import Edi.Proofs.Scanner.Blank
import Edi.Proofs.Segment.Feed

namespace Edi

theorem Cursor.fill_of_le {k : Cursor} {need : Nat} (h : need ≤ k.ahead.length) :
    k.fill need = (.ok (), k) := by
  rw [fill, dif_neg]
  intro hn
  have hl := lacks_iff.1 hn.1
  omega

structure Delimiters.Letter (d : Delimiters) (c : Char) : Prop where
  letter : Segment.isTagLetter c
  data : d.classify c = .data
  tag : some c ≠ d.tag
  blank : Text.isBlankChar c = false

namespace Segment

variable {d : Delimiters} {trims : Bool} {maxLength start offset : Nat} {c : Char}

theorem recognizer_feed_letter (trims : Bool) (maxLength start offset : Nat) {letters : List Char}
    (hc : d.Letter c) (hl : letters.length < maxTagLength) :
    (recognizer d trims maxLength start).feed (.tag letters) offset c (d.classify c) =
      .more (.tag (c :: letters)) := by
  simp [recognizer, hc.data, hc.letter, hc.tag, Nat.not_le.2 hl]

def Part.TagBegins (cs : List Char) : Part → Prop
  | tag letters => cs <+: letters.reverse
  | body b => cs <+: b.tag.toList

theorem recognizer_feed_tagBegins {cs : List Char} {p p' : Part} {k : CharClass}
    (hp : p.TagBegins cs)
    (h : (recognizer d trims maxLength start).feed p offset c k = .more p') :
    p'.TagBegins cs := by
  cases recognizer_feed_eq_more h with
  | letter => simpa [Part.TagBegins] using hp.trans (List.prefix_append _ [c])
  | tagEnd => simpa [Part.TagBegins] using hp
  | grown => exact hp
  | ended => exact hp

theorem recognizer_take_tagBegins {cs : List Char} {p : Part} {k : CharClass} {s : Segment}
    (hp : p.TagBegins cs)
    (h : (recognizer d trims maxLength start).feed p offset c k = .take (.ok s)) :
    cs <+: s.tag.toList := by
  cases recognizer_feed_eq_take h with
  | tag => simpa [Part.TagBegins] using hp
  | body => exact hp

end Segment

namespace Scanner

variable {t u : Scanner} {cs letters rest : List Char} {c : Char}

theorem next_of_ahead (h : t.cursor.ahead = c :: cs) :
    ∃ u, t.next = (.ok (some c), u) ∧ u.cursor.ahead = cs ∧ u.delimiters = t.delimiters ∧
      u.cursor.last = .character ∧ u.cursor.behind.head? = some c := by
  have hf : t.cursor.fill 1 = (.ok (), t.cursor) := Cursor.fill_of_le (by simp [h])
  simp only [next, Cursor.next, hf, h]
  exact ⟨_, rfl, rfl, rfl, rfl, rfl⟩

theorem skipBlank_of_ahead (h : t.cursor.ahead = c :: cs) (hc : Text.isBlankChar c = false) :
    ∃ u, t.skipBlank = (.ok true, u) ∧ u.cursor.ahead = c :: cs ∧
      u.delimiters = t.delimiters := by
  obtain ⟨u, hu, ha, hd, hl, hb⟩ := next_of_ahead h
  rw [skipBlank_eq]
  simp only [hu, hc, Bool.false_eq_true, ↓reduceIte, leave, back, Cursor.back, hl]
  exact ⟨_, rfl, by simp [List.take_one, hb, ha], hd⟩

theorem recognize_letters (trims : Bool) (maxLength start : Nat)
    (h : t.cursor.ahead = cs ++ rest) (hc : ∀ c ∈ cs, t.delimiters.Letter c)
    (hl : letters.length + cs.length ≤ Segment.maxTagLength) :
    ∃ u : Scanner, u.delimiters = t.delimiters ∧
      t.recognize (Segment.recognizer t.delimiters trims maxLength start) (.tag letters) =
        u.recognize (Segment.recognizer t.delimiters trims maxLength start)
          (.tag (cs.reverse ++ letters)) := by
  induction cs generalizing t letters with
  | nil => exact ⟨t, rfl, rfl⟩
  | cons c cs ih =>
    obtain ⟨hc, hcs⟩ := List.forall_mem_cons.1 hc
    rw [List.length_cons] at hl
    obtain ⟨u, hu, ha, hd, -⟩ := next_of_ahead h
    have hf : (Segment.recognizer t.delimiters trims maxLength start).feed (.tag letters) u.offset c
        (t.delimiters.classify c) = .more (.tag (c :: letters)) :=
      Segment.recognizer_feed_letter trims maxLength start u.offset hc (by omega)
    rw [recognize_eq]
    simp only [hu, hd, hf]
    rw [← hd] at hcs ⊢
    have hl : (c :: letters).length + cs.length ≤ Segment.maxTagLength := by
      rw [List.length_cons]
      omega
    obtain ⟨v, hv, hr⟩ := ih ha hcs hl
    exact ⟨v, hv, by simpa using hr⟩

/-- The tag of the next segment begins with the letters ahead. -/
theorem segment_tag_begins {s : Segment} (h : t.cursor.ahead = cs ++ rest)
    (hc : ∀ c ∈ cs, t.delimiters.Letter c) (hne : cs ≠ []) (hl : cs.length ≤ Segment.maxTagLength)
    (hs : t.segment = (.ok (some s), u)) : cs <+: s.tag.toList := by
  obtain ⟨c, cs, rfl⟩ := List.exists_cons_of_ne_nil hne
  obtain ⟨v, hv, ha, hd⟩ := skipBlank_of_ahead h (hc c (by simp)).blank
  simp only [segment, hv] at hs
  split at hs
  · simp at hs
  · next s' w hr =>
    obtain ⟨he, -⟩ := Prod.mk.inj hs
    obtain rfl := Option.some.inj (Except.ok.inj he)
    rw [← hd] at hc
    let begun : Scanner := { v with segmentText := [], repeats := false, pendingEnd := none }
    have hb : begun.cursor.ahead = (c :: cs) ++ rest := ha
    have hl' : ([] : List Char).length + (c :: cs).length ≤ Segment.maxTagLength := by
      simpa using hl
    obtain ⟨x, hx, hrx⟩ := recognize_letters v.trims v.maxElementLength v.offset hb hc hl'
    rw [hrx] at hr
    refine recognize_invariant (p := Segment.Part.TagBegins (c :: cs))
      (q := fun s ↦ c :: cs <+: s.tag.toList) ?_ ?_ ?_ ?_ hr
    · intro p offset d p' hp hm
      exact Segment.recognizer_feed_tagBegins hp hm
    · intro p offset d s hp hm
      rcases hm with hm | hm
      · exact Segment.recognizer_take_tagBegins hp hm
      · exact absurd hm (Segment.recognizer_feed_ne_leave _ _ _ _ _ _ _ _ _)
    · intro p offset s hp hm
      obtain ⟨hx, hx'⟩ := Segment.recognizer_finish_ne_ok v.delimiters v.trims
        v.maxElementLength v.offset p offset s
      exact absurd hm (not_or.2 ⟨hx, hx'⟩)
    · simp [Segment.Part.TagBegins]

end Scanner

end Edi
