import Edi.Proofs.Scanner.Blank
import Edi.Proofs.Segment.Shift
import Mathlib.Data.List.Basic

namespace Edi

variable {distance stop : Nat} {more : List Char}

/-- Two cursors in texts that go on alike up to the offset `stop`, where the text of `k` ends and
that of `k'` goes on with `more`. All offsets of `k'` are greater by the `distance`. -/
structure Cursor.Follows (distance : Nat) (more : List Char) (stop : Nat) (k k' : Cursor) :
    Prop where
  holds : ∃ cs, k.Holds cs ∧ k'.Holds (cs ++ more) ∧ k.offset + cs.length = stop
  offset : k'.offset = k.offset + distance
  last : k'.last = k.last
  last_ne : k.last ≠ .endOfInput
  behind : k.last = .character →
    0 < k.offset ∧ ∃ c, k.behind.head? = some c ∧ k'.behind.head? = some c

namespace Cursor.Follows

variable {k k' : Cursor}

theorem next (h : k.Follows distance more stop k') :
    (∃ c j j', k.next = (.ok (some c), j) ∧ k'.next = (.ok (some c), j') ∧
      j.Follows distance more stop j' ∧ j.last = .character) ∨
    ∃ j, k.next = (.ok none, j) ∧ j.last = .endOfInput := by
  obtain ⟨⟨cs, hk, hk', hs⟩, ho, hl, hne, -⟩ := h
  cases cs with
  | nil =>
    obtain ⟨j, -, -, hj, hn⟩ := hk.next_nil Source.holds_forecast
    rw [if_neg hne] at hn
    exact .inr ⟨j, hn, hj⟩
  | cons c cs =>
    obtain ⟨j, hn, hj, hjo, hjl, hjb⟩ := hk.next_cons Source.holds_forecast
    obtain ⟨j', hn', hj', hjo', hjl', hjb'⟩ := hk'.next_cons Source.holds_forecast
    refine .inl ⟨c, j, j', hn, hn', ⟨⟨cs, hj, hj', ?_⟩, ?_, ?_, ?_, fun _ ↦ ⟨?_, c, hjb, hjb'⟩⟩,
      hjl⟩
    · rw [List.length_cons] at hs
      omega
    · omega
    · rw [hjl, hjl']
    · simp [hjl]
    · omega

theorem back (h : k.Follows distance more stop k') (hc : k.last = .character) :
    ∃ j j', k.back = (.ok (), j) ∧ k'.back = (.ok (), j') ∧ j.Follows distance more stop j' := by
  obtain ⟨⟨cs, ⟨rest, hr, hcs, he⟩, ⟨rest', hr', hcs', he'⟩, hs⟩, ho, hl, -, hb⟩ := h
  obtain ⟨hpos, c, hk, hk'⟩ := hb hc
  refine ⟨_, _, by rw [Cursor.back, hc], by rw [Cursor.back, hl.trans hc], ?_⟩
  refine ⟨⟨c :: cs, ⟨rest, hr, ?_, he⟩, ⟨rest', hr', ?_, he'⟩, ?_⟩, ?_, rfl, ?_, by simp⟩
  · simp [List.take_one, hk, hcs]
  · simp [List.take_one, hk', hcs']
  · simp only [List.length_cons]
    omega
  · simp only [ho]
    omega
  · simp

theorem peek (n : Nat) (h : k.Follows distance more stop k') :
    ∃ cs j j', k.peek n = (.ok (cs.take n), j) ∧ k'.peek n = (.ok ((cs ++ more).take n), j') ∧
      k.Holds cs ∧ j.Holds cs ∧ j.Follows distance more stop j' := by
  obtain ⟨⟨cs, hk, hk', hs⟩, ho, hl, hne, hb⟩ := h
  obtain ⟨j, hj, hh, hjo, hjl, hjb⟩ := hk.peek Source.holds_forecast n
  obtain ⟨j', hj', hh', hjo', hjl', hjb'⟩ := hk'.peek Source.holds_forecast n
  refine ⟨cs, j, j', hj, hj', hk, hh, ⟨cs, hh, hh', by rwa [hjo]⟩, ?_, ?_, ?_, ?_⟩
  · rw [hjo, hjo', ho]
  · rw [hjl, hjl', hl]
  · rwa [hjl]
  · rwa [hjl, hjo, hjb, hjb']

end Cursor.Follows

theorem Delimiters.classify_eq {d d' : Delimiters} (h : d'.bare = d.bare) (c : Char) :
    d'.classify c = d.classify c :=
  congrArg (·.classify c) h

theorem Segment.recognizer_eq {d d' : Delimiters} (h : d'.bare = d.bare) (trims : Bool)
    (maxLength start : Nat) :
    recognizer d' trims maxLength start = recognizer d trims maxLength start := by
  have hr : recognizer d'.bare trims maxLength start = recognizer d.bare trims maxLength start := by
    rw [h]
  exact hr

namespace Scanner

structure Follows (distance : Nat) (more : List Char) (stop : Nat) (t u : Scanner) : Prop where
  cursor : t.cursor.Follows distance more stop u.cursor
  rules : t.SameRules u

def BreaksOff {α : Type} (x : Except Error α × Scanner) : Prop :=
  ∃ offset expected t, x = (.error (.unexpectedEnd offset expected), t)

variable {t u : Scanner} {σ α : Type}

namespace Follows

theorem offset (h : t.Follows distance more stop u) : u.offset = t.offset + distance :=
  h.cursor.offset

theorem next (h : t.Follows distance more stop u) :
    (∃ c t' u', t.next = (.ok (some c), t') ∧ u.next = (.ok (some c), u') ∧
      t'.Follows distance more stop u' ∧ t'.cursor.last = .character) ∨
    ∃ t', t.next = (.ok none, t') ∧ t'.cursor.last = .endOfInput := by
  rcases h.cursor.next with ⟨c, j, j', hj, hj', hf, hl⟩ | ⟨j, hj, hl⟩
  · refine .inl ⟨c, _, _, by rw [Scanner.next, hj], by rw [Scanner.next, hj'], ⟨hf, ?_⟩, hl⟩
    exact ⟨h.rules.delimiters, h.rules.trims, h.rules.maxElementLength⟩
  · exact .inr ⟨_, by rw [Scanner.next, hj], hl⟩

theorem leave (answer answer' : Except Error α) (h : t.Follows distance more stop u)
    (hc : t.cursor.last = .character) : ∃ t' u', t.leave answer = (answer, t') ∧
      u.leave answer' = (answer', u') ∧ t'.Follows distance more stop u' := by
  obtain ⟨j, j', hj, hj', hf⟩ := h.cursor.back hc
  have hu : u.cursor.last = .character := h.cursor.last.trans hc
  refine ⟨_, _, by simp only [Scanner.leave, Scanner.back, hj, hc]; rfl,
    by simp only [Scanner.leave, Scanner.back, hj', hu]; rfl, hf, ?_⟩
  exact ⟨h.rules.delimiters, h.rules.trims, h.rules.maxElementLength⟩

theorem peek (n : Nat) (h : t.Follows distance more stop u) :
    ∃ cs t' u', t.peek n = (.ok (cs.take n), t') ∧ u.peek n = (.ok ((cs ++ more).take n), u') ∧
      t.cursor.Holds cs ∧ t'.cursor.Holds cs ∧ t'.Follows distance more stop u' := by
  obtain ⟨cs, j, j', hj, hj', hh, hjh, hf⟩ := h.cursor.peek n
  refine ⟨cs, _, _, by rw [Scanner.peek, hj], by rw [Scanner.peek, hj'], hh, hjh, hf, ?_⟩
  exact ⟨h.rules.delimiters, h.rules.trims, h.rules.maxElementLength⟩

/-- A recognizer comes to the same answer on both, or the text of the first is at its end before
there is an answer. -/
theorem recognize {m m' : Recognizer σ α} {f : σ → σ} {g : α → α}
    (hm : ∀ s offset c k, 0 < offset →
      m'.feed (f s) (offset + distance) c k = (m.feed s offset c k).shift distance f g)
    (s : σ) (h : t.Follows distance more stop u) :
    (∃ answer t' u', t.recognize m s = (answer, t') ∧
      u.recognize m' (f s) = (Error.shiftOr distance g answer, u') ∧
      t'.Follows distance more stop u') ∨
    ∃ s' t', t'.cursor.last = .endOfInput ∧ t.recognize m s =
      match m.finish s' t'.offset with
      | .take answer => (answer, t')
      | .leave answer => t'.leave answer := by
  induction hb : t.bound using Nat.strongRecOn generalizing s t u with
  | ind n ih =>
    rw [recognize_eq m s t, recognize_eq m' (f s) u]
    rcases h.next with ⟨c, t', u', ht, hu, h', hc⟩ | ⟨t', ht, hl⟩
    · have hpos : 0 < t'.offset := (h'.cursor.behind hc).1
      have hv := hm s t'.offset c (t'.delimiters.classify c) hpos
      rw [← h'.offset] at hv
      simp only [ht, hu, Delimiters.classify_eq h'.rules.delimiters, hv]
      cases m.feed s t'.offset c (t'.delimiters.classify c) with
      | more s' => exact ih _ (hb ▸ (next_eq_some ht).1) s' h' rfl
      | take answer => exact .inl ⟨answer, t', u', rfl, rfl, h'⟩
      | leave answer =>
        obtain ⟨v, w, hv, hw, hf⟩ := h'.leave answer (Error.shiftOr distance g answer) hc
        exact .inl ⟨answer, v, w, hv, hw, hf⟩
    · simp only [ht]
      exact .inr ⟨s, t', hl, rfl⟩

theorem skipBlank (h : t.Follows distance more stop u) :
    (∃ cs t', Text.IsBlank cs ∧ t.cursor.Holds cs ∧ t.skipBlank = (.ok false, t')) ∨
    ∃ t' u', t.skipBlank = (.ok true, t') ∧ u.skipBlank = (.ok true, u') ∧
      t'.Follows distance more stop u' := by
  obtain ⟨⟨⟨cs, hk, hk', hs⟩, ho, hl, hne, -⟩, hr⟩ := h
  rcases Text.isBlank_or_exists cs with hb | ⟨bs, c, rest, rfl, hb, hc⟩
  · obtain ⟨t', ht, -⟩ := skipBlank_of_isBlank hb hk hne
    exact .inl ⟨cs, t', hb, hk, ht⟩
  · rw [List.append_assoc, List.cons_append] at hk'
    obtain ⟨t', ht, hh, hto, htl, htr⟩ := skipBlank_of_not_isBlank hb hc hk hne
    obtain ⟨u', hu, hh', huo, hul, hur⟩ := skipBlank_of_not_isBlank hb hc hk' (hl ▸ hne)
    refine .inr ⟨t', u', ht, hu, ⟨⟨c :: rest, hh, hh', ?_⟩, ?_, ?_, ?_, ?_⟩, ?_⟩
    · simp only [List.length_append, List.length_cons] at hs ⊢
      simp only [Scanner.offset] at hto
      omega
    · simp only [Scanner.offset] at hto huo
      omega
    · rw [htl, hul]
    · simp [htl]
    · simp [htl]
    · exact (htr.symm.trans hr).trans hur

theorem segment (h : t.Follows distance more stop u) :
    (∃ answer t' u', t.segment = (answer, t') ∧
      u.segment = (Error.shiftOr distance (Option.map (·.shift distance)) answer, u') ∧
      t'.Follows distance more stop u') ∨
    (∃ t', t.segment = (.ok none, t')) ∨ BreaksOff t.segment := by
  simp only [Scanner.segment]
  rcases h.skipBlank with ⟨cs, t', -, -, ht⟩ | ⟨t', u', ht, hu, h'⟩
  · simp only [ht]
    exact .inr (.inl ⟨t', rfl⟩)
  · have hc : Follows distance more stop
        { t' with segmentText := [], repeats := false, pendingEnd := none }
        { u' with segmentText := [], repeats := false, pendingEnd := none } :=
      ⟨h'.cursor, h'.rules.delimiters, h'.rules.trims, h'.rules.maxElementLength⟩
    simp only [ht, hu, Segment.recognizer_eq h'.rules.delimiters, h'.rules.trims,
      h'.rules.maxElementLength, h'.offset]
    rcases hc.recognize (fun p offset c k ho ↦ Segment.recognizer_feed_shift p c k ho)
      (m := Segment.recognizer t'.delimiters t'.trims t'.maxElementLength t'.offset) (.tag [])
      with ⟨answer, v, w, hv, hw, hf⟩ | ⟨p, v, hl, hv⟩
    · left
      simp only [Segment.Part.shift, h'.rules.trims, h'.rules.maxElementLength] at hw
      simp only [hv, hw]
      cases answer with
      | error e => exact ⟨_, _, _, rfl, rfl, hf⟩
      | ok s =>
        refine ⟨_, _, _, rfl, rfl, ⟨hf.cursor, ?_⟩⟩
        exact ⟨hf.rules.delimiters, hf.rules.trims, hf.rules.maxElementLength⟩
    · right
      right
      obtain ⟨offset, expected, hf | hf⟩ := Segment.recognizer_finish t'.delimiters t'.trims
        t'.maxElementLength t'.offset p v.offset
      · simp only [hv, hf]
        exact ⟨offset, expected, v, rfl⟩
      · obtain ⟨w, hw⟩ := leave_of_endOfInput
          (.error (.unexpectedEnd offset expected) : Except Error Segment) hl
        simp only [hv, hf, hw]
        exact ⟨offset, expected, w, rfl⟩

theorem pass (n : Nat) (h : t.Follows distance more stop u) :
    (∃ t' u', Scanner.pass n t = (.ok (), t') ∧ Scanner.pass n u = (.ok (), u') ∧
      t'.Follows distance more stop u') ∨
    BreaksOff (Scanner.pass n t) := by
  induction n generalizing t u with
  | zero => exact .inl ⟨t, u, rfl, rfl, h⟩
  | succ n ih =>
    simp only [Scanner.pass]
    rcases h.next with ⟨c, t', u', ht, hu, h', -⟩ | ⟨t', ht, -⟩
    · simp only [ht, hu]
      exact ih h'
    · simp only [ht]
      exact .inr ⟨_, _, t', rfl⟩

theorem passSegment (n : Nat) (h : t.Follows distance more stop u) :
    (∃ t' u', t.passSegment n = (.ok (), t') ∧ u.passSegment n = (.ok (), u') ∧
      t'.Follows distance more stop u') ∨
    BreaksOff (t.passSegment n) := by
  have hc : Follows distance more stop { t with segmentText := [] } { u with segmentText := [] } :=
    ⟨h.cursor, h.rules.delimiters, h.rules.trims, h.rules.maxElementLength⟩
  simp only [Scanner.passSegment]
  rcases hc.pass n with ⟨t', u', ht, hu, h'⟩ | ⟨offset, expected, t', ht⟩
  · simp only [ht, hu]
    refine .inl ⟨_, _, rfl, rfl, h'.cursor, ?_⟩
    exact ⟨h'.rules.delimiters, h'.rules.trims, h'.rules.maxElementLength⟩
  · simp only [ht]
    exact .inr ⟨offset, expected, t', rfl⟩

end Follows

end Scanner

end Edi
